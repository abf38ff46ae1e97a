import Talos.Worker.UpdateAccount

/-!
# Whose account is deleted

A call writes a state file for an account that it found, and the next call takes
the state file as a sign that the account is its own. When that call can read
neither password, it deletes the account. `RecreatesForeign` is this case, and
the deletions of a run are all of own accounts exactly when no call of the run is
in it.
-/

namespace Talos.UpdateAccount

open Fallible Transition Program

/-! ## Runs -/

inductive AccountStep where
  | call (call : AccountCall) (outcomes : AccountSite → Outcome)
  | create (uid : Option String)
  | delete
  | keychain (managed legacy : Option ByteArray)

variable (m : Machine)

/-- A call, or what others do between the calls. -/
def Machine.step : AccountStep → Machine
  | .call call outcomes => (ensureAccountStateLocked m.appleSilicon call outcomes m).2
  | .create uid => { m with account := m.account.or (some ⟨.others, uid⟩) }
  | .delete => { m with account := none }
  | .keychain managed legacy => { m with managed, legacy }

/-- Every account that the delete command was run on was created by this code. -/
def OnlyOwnDeleted : Prop := ∀ account ∈ m.deleted, account.creator = .talos

/-- The System Keychain cannot be opened, or the password in it cannot be read. -/
def ManagedUnreadable (o : AccountSite → Outcome) : Prop :=
  (o .openToRead).report = .error ∨
    (o .openToRead).report = .ok ∧
      ((o .findPassword).report = .error ∨
        (o .findPassword).report = .ok ∧ m.managed.bind String.fromUTF8? = none)

def LegacyUnreadable (o : AccountSite → Outcome) : Prop :=
  (o .readLegacy).report = .error ∨ (o .readLegacy).report = .ok ∧ m.legacy = none

/-- A call finds a state file and an account of others, can read neither password,
and the operations up to the delete command succeed. -/
def RecreatesForeign : AccountStep → Prop
  | .call _ o =>
    m.appleSilicon = true ∧ m.stateFile.isSome = true ∧
    (∃ account, m.account = some account ∧ account.creator = .others) ∧
    ManagedUnreadable m o ∧ LegacyUnreadable m o ∧
    (o .readState).report = .ok ∧ (o .findUser).report = .ok ∧
    (o .openToRecreate).report = .ok ∧ (o (.findBefore .recreate)).report = .ok ∧
    (o (.spawnDelete .recreate)).report = .ok
  | _ => False

/-! ## What the operations keep -/

/-- A relation that sees the account and the deletions only. -/
class Observes (K : Machine → Machine → Prop) : Prop where
  of_eq : ∀ m m' : Machine, m'.account = m.account → m'.deleted = m.deleted → K m m'
  trans : ∀ m m' m'', K m m' → K m' m'' → K m m''

/-- A relation that holds across every operation on the account. -/
class Respects (K : Machine → Machine → Prop) : Prop extends Observes K where
  add : ∀ (m : Machine) uid, K m { m with account := m.account.or (some ⟨.talos, uid⟩) }
  note : ∀ m, K m (noteDeletion m)
  remove : ∀ m : Machine, K m { m with account := none }

instance (K : Machine → Machine → Prop) [Observes K] : Std.Refl K where
  refl m := Observes.of_eq m m rfl rfl

instance (K : Machine → Machine → Prop) [Observes K] : IsTrans Machine K where
  trans := Observes.trans

section Observes

variable {K : Machine → Machine → Prop} [Observes K]

theorem keeps_requireUsername : Keeps K requireUsername := by
  unfold requireUsername
  split
  · exact keeps_pure _
  · exact keeps_fail _

theorem keeps_userExists (site : AccountSite) : Keeps K (userExists site) :=
  keeps_bind keeps_requireUsername fun _ => keeps_read _ _ _

theorem keeps_generatedUid : Keeps K generatedUid :=
  keeps_bind (keeps_attempt (keeps_bind keeps_requireUsername fun _ => keeps_read _ _ _))
    fun _ => keeps_pure _

theorem keeps_writeState (state : AccountState) : Keeps K (writeState state) :=
  keeps_change fun m => Observes.of_eq m _ rfl rfl

theorem keeps_storeManagedPassword (place : Place) (password : String) :
    Keeps K (storeManagedPassword place password) :=
  keeps_bind (keeps_read _ _ _) fun _ => keeps_change fun m => Observes.of_eq m _ rfl rfl

theorem keeps_getManagedPassword : Keeps K getManagedPassword := by
  refine keeps_bind (keeps_read _ _ _) fun _ => keeps_bind (keeps_read _ _ _) fun item => ?_
  cases item with
  | none => exact keeps_fail _
  | some bytes =>
    dsimp only
    split
    · exact keeps_fail _
    · exact keeps_pure _

theorem keeps_migrate : Keeps K migrateDefaultKeychainPasswordToSystemKeychain := by
  refine keeps_bind (keeps_attempt (keeps_read _ _ _)) fun item => ?_
  split
  · exact keeps_pure _
  · split
    · exact keeps_fail _
    · exact keeps_bind (keeps_storeManagedPassword _ _) fun _ => keeps_pure _

theorem keeps_hardenStandardUser : Keeps K hardenStandardUser :=
  keeps_bind keeps_requireUsername fun _ =>
    keeps_bind (keeps_attempt (keeps_change fun m => Observes.of_eq m _ rfl rfl))
      fun _ => keeps_pure _

theorem keeps_writeManagedAccountState (call : AccountCall) (previousState : Option AccountState)
    (failureMessage : String) :
    Keeps K (writeManagedAccountState call previousState failureMessage) :=
  keeps_bind keeps_generatedUid fun _ => keeps_writeState _

end Observes

section Respects

variable {K : Machine → Machine → Prop} [Respects K]

variable (call : AccountCall)

theorem keeps_createStandardUser : Keeps K (createStandardUser call) := by
  refine keeps_bind keeps_requireUsername fun _ =>
    keeps_bind (keeps_change fun m => Respects.add m call.newUid) fun _ =>
      keeps_bind (keeps_userExists _) fun found => ?_
  cases found with
  | true => exact keeps_hardenStandardUser
  | false => exact keeps_fail _

theorem keeps_deleteStandardUser (place : Place) : Keeps K (deleteStandardUser place) := by
  refine keeps_bind keeps_requireUsername fun _ =>
    keeps_bind (keeps_userExists _) fun found => ?_
  cases found with
  | false => exact keeps_pure _
  | true =>
    refine keeps_bind (keeps_read _ _ _) fun _ => keeps_bind (keeps_note Respects.note) fun _ =>
      keeps_bind (keeps_change Respects.remove) fun _ =>
        keeps_bind (keeps_userExists _) fun still => ?_
    cases still with
    | true => exact keeps_fail _
    | false => exact keeps_pure _

variable (previousState : Option AccountState) (failureMessage : String)

theorem keeps_createManagedAccountLocked :
    Keeps K (createManagedAccountLocked call previousState failureMessage) := by
  refine keeps_bind (keeps_read _ _ _) fun password =>
    keeps_bind (keeps_createStandardUser call) fun _ =>
      keeps_bind (keeps_attempt (keeps_storeManagedPassword _ _)) fun stored => ?_
  cases stored with
  | some _ => exact keeps_writeManagedAccountState call previousState failureMessage
  | none =>
    exact keeps_bind (keeps_attempt (keeps_deleteStandardUser _)) fun _ => keeps_fail _

theorem keeps_recreateManagedAccountLocked :
    Keeps K (recreateManagedAccountLocked call previousState failureMessage) :=
  keeps_bind (keeps_read _ _ _) fun _ =>
    keeps_bind (keeps_deleteStandardUser _) fun _ =>
      keeps_createManagedAccountLocked call previousState failureMessage

theorem keeps_ensureCredential (state : Option AccountState) :
    Keeps K (ensureCredential call state) := by
  refine keeps_bind (keeps_attempt keeps_getManagedPassword) fun password => ?_
  cases password with
  | some _ => exact keeps_hardenStandardUser
  | none =>
    refine keeps_bind keeps_migrate fun migrated => ?_
    cases migrated with
    | some _ => exact keeps_hardenStandardUser
    | none => exact keeps_recreateManagedAccountLocked _ _ _

theorem keeps_ensureFound (state : Option AccountState) (found : Bool) :
    Keeps K (ensureFound call state found) := by
  unfold ensureFound
  split
  · exact keeps_bind keeps_generatedUid fun _ => keeps_writeState _
  · split
    · exact keeps_createManagedAccountLocked _ _ _
    · exact keeps_ensureCredential _ _

theorem keeps_ensureAccountStateLocked (appleSilicon : Bool) (call : AccountCall) :
    Keeps K (ensureAccountStateLocked appleSilicon call) := by
  cases appleSilicon with
  | false => exact keeps_pure _
  | true =>
    exact keeps_bind (keeps_read _ _ _) fun state =>
      keeps_bind (keeps_userExists _) fun found => keeps_ensureFound call state found

end Respects

/-! ## The two relations -/

def Owned : Prop :=
  (∀ account ∈ m.account, account.creator = .talos) ∧ OnlyOwnDeleted m

def StaysOwned (m' : Machine) : Prop := Owned m → Owned m'

def DeletionsKept (m' : Machine) : Prop := ∀ account ∈ m.deleted, account ∈ m'.deleted

instance : Respects StaysOwned where
  of_eq m m' haccount hdeleted h := by
    rwa [Owned, OnlyOwnDeleted, haccount, hdeleted]
  trans _ _ _ h h' := h' ∘ h
  add m uid h := by
    refine ⟨fun account haccount => ?_, h.2⟩
    cases hm : m.account with
    | none =>
      rw [hm] at haccount
      cases haccount
      rfl
    | some found =>
      rw [hm] at haccount
      exact h.1 account (hm ▸ haccount)
  note m h := by
    refine ⟨h.1, fun account haccount => ?_⟩
    rcases List.mem_append.mp haccount with hfound | hbefore
    · exact h.1 account (Option.mem_toList.mp hfound)
    · exact h.2 account hbefore
  remove m h := ⟨fun account haccount => (by cases haccount), h.2⟩

instance : Respects DeletionsKept where
  of_eq _ _ _ hdeleted _ haccount := hdeleted ▸ haccount
  trans _ _ _ h h' account haccount := h' account (h account haccount)
  add _ _ _ haccount := haccount
  note _ _ haccount := List.mem_append_right _ haccount
  remove _ _ haccount := haccount

theorem step_deletionsKept (step : AccountStep) : DeletionsKept m (m.step step) := by
  cases step with
  | call call o => exact keeps_ensureAccountStateLocked _ call o m
  | create uid => exact fun _ haccount => haccount
  | delete => exact fun _ haccount => haccount
  | keychain managed legacy => exact fun _ haccount => haccount

/-! ## A call that finds an account of others -/

section Foreign

variable {m : Machine} {o : AccountSite → Outcome} {account : Account} {α β : Type} {A B : Prop}

theorem requireUsername_eq : requireUsername = pure () := if_pos (by decide)

theorem userExists_eq (site : AccountSite) : userExists site =
    Program.read site ("read macOS user " ++ defaultUsername) fun m => m.account.isSome := by
  rw [userExists, requireUsername_eq]
  rfl

theorem getManagedPassword_cases (m : Machine) (o : AccountSite → Outcome) :
    ManagedUnreadable m o ∧ attempt getManagedPassword o m = (.ok none, m) ∨
    ¬ ManagedUnreadable m o ∧ (attempt getManagedPassword o m).1 ≠ .ok none := by
  unfold ManagedUnreadable attempt getManagedPassword systemKeychain
  simp only [Bind.bind, Program.bind, Program.read]
  cases (o .openToRead).report with
  | error => simp [Program.result]
  | crash => simp [Program.result]
  | ok =>
    cases (o .findPassword).report with
    | error => simp [Program.result]
    | crash => simp [Program.result]
    | ok =>
      cases hmanaged : m.managed with
      | none => simp [Program.result, Program.fail, hmanaged]
      | some bytes =>
        cases hbytes : String.fromUTF8? bytes with
        | none => simp [Program.result, Program.fail, hmanaged, hbytes]
        | some password => simp [Program.result, hmanaged, hbytes, Pure.pure, Program.pure]

theorem migrate_cases (m : Machine) (o : AccountSite → Outcome) : LegacyUnreadable m o ∧
      migrateDefaultKeychainPasswordToSystemKeychain o m = (.ok none, m) ∨
    ¬ LegacyUnreadable m o ∧ (migrateDefaultKeychainPasswordToSystemKeychain o m).1 ≠ .ok none := by
  unfold LegacyUnreadable migrateDefaultKeychainPasswordToSystemKeychain
  simp only [Bind.bind, Program.bind, Program.read, attempt]
  cases (o .readLegacy).report with
  | error => simp [Program.result, Pure.pure, Program.pure]
  | crash => simp [Program.result]
  | ok =>
    cases m.legacy with
    | none => simp [Program.result, Pure.pure, Program.pure]
    | some bytes =>
      cases hbytes : String.fromUTF8? bytes with
      | none => simp [Program.result, Program.fail, hbytes]
      | some password =>
        refine .inr ⟨by simp, ?_⟩
        simp only [Program.result, Option.join_some, hbytes, Program.bind]
        split <;> simp [Pure.pure, Program.pure]

def SameDeletions (m m' : Machine) : Prop := m'.deleted = m.deleted

instance : Observes SameDeletions where
  of_eq _ _ _ hdeleted := hdeleted
  trans _ _ _ h h' := h'.trans h

/-- The program runs the delete command on the account if `A`, and otherwise leaves the
deletions alone. -/
structure DeletesIff (m : Machine) (o : AccountSite → Outcome) (account : Account)
    (p : AccountProgram α) (A : Prop) : Prop where
  deletes : A → account ∈ (p o m).2.deleted
  spares : ¬A → (p o m).2.deleted = m.deleted

/-- The first part of a program returns to the same machine if `B`, and otherwise nothing is
deleted after it. -/
theorem deletesIff_bind {p : AccountProgram β} {f : β → AccountProgram α} {b : β}
    (hp : Keeps SameDeletions p)
    (hcases : B ∧ p o m = (.ok b, m) ∨ ¬B ∧ ∀ b, (p o m).1 = .ok b → Keeps SameDeletions (f b))
    (hf : DeletesIff m o account (f b) A) : DeletesIff m o account (p >>= f) (B ∧ A) := by
  rcases hcases with ⟨hB, hrun⟩ | ⟨hB, hquiet⟩
  · have hbind : (p >>= f) o m = f b o m := bind_of_ok hrun
    refine ⟨fun hA => ?_, fun hA => ?_⟩ <;> rw [hbind]
    · exact hf.deletes hA.2
    · exact hf.spares fun h => hA ⟨hB, h⟩
  · refine ⟨fun hA => absurd hA.1 hB, fun _ => ?_⟩
    have hsame := hp o m
    change (Program.bind p f o m).2.deleted = m.deleted
    unfold Program.bind
    split
    next b s' heq =>
      rw [heq] at hsame
      exact (hquiet b (by rw [heq]) o s').trans hsame
    next stop s' heq =>
      rw [heq] at hsame
      exact hsame

theorem deletesIff_read_bind {site : AccountSite} {description : String} {g : Machine → β}
    {f : β → AccountProgram α} (hf : DeletesIff m o account (f (g m)) A) :
    DeletesIff m o account (Program.read site description g >>= f)
      ((o site).report = .ok ∧ A) := by
  refine deletesIff_bind (keeps_read _ _ _) ?_ hf
  cases hreport : (o site).report with
  | ok => exact .inl ⟨rfl, read_of_ok hreport⟩
  | error | crash =>
    refine .inr ⟨by simp, fun b hb => ?_⟩
    rw [Program.read, hreport] at hb
    cases hb

theorem deletesIff_deleteStandardUser (haccount : m.account = some account) (place : Place)
    {f : Unit → AccountProgram α} (hf : ∀ a, Keeps DeletionsKept (f a)) :
    DeletesIff m o account (deleteStandardUser place >>= f)
      ((o (.findBefore place)).report = .ok ∧ (o (.spawnDelete place)).report = .ok ∧ True) := by
  unfold deleteStandardUser
  rw [requireUsername_eq, userExists_eq, bind_bind, bind_bind]
  refine deletesIff_read_bind ?_
  rw [haccount, Option.isSome_some, if_pos rfl, bind_bind]
  refine deletesIff_read_bind ⟨fun _ => ?_, fun h => absurd trivial h⟩
  rw [bind_bind]
  -- the deletion is noted, and what follows keeps it
  refine keeps_after (K := DeletionsKept) (fun _ => keeps_bind (keeps_bind
    (keeps_change Respects.remove) fun _ => keeps_bind (keeps_userExists _) fun still => ?_) hf)
    o m account ?_
  · cases still with
    | true => exact keeps_fail _
    | false => exact keeps_pure _
  · change account ∈ m.account.toList ++ m.deleted
    rw [haccount]
    exact List.mem_cons_self

/-- Neither password can be read, and the operations up to the delete command succeed. -/
def LosesPasswords (m : Machine) (o : AccountSite → Outcome) : Prop :=
  ManagedUnreadable m o ∧ LegacyUnreadable m o ∧ (o .openToRecreate).report = .ok ∧
    (o (.findBefore .recreate)).report = .ok ∧ (o (.spawnDelete .recreate)).report = .ok ∧ True

theorem deletesIff_ensureCredential (haccount : m.account = some account) (call : AccountCall)
    (state : Option AccountState) :
    DeletesIff m o account (ensureCredential call state) (LosesPasswords m o) := by
  refine deletesIff_bind (keeps_attempt keeps_getManagedPassword)
    ((getManagedPassword_cases m o).imp_right fun h => ⟨h.1, fun found hfound => ?_⟩)
    (deletesIff_bind keeps_migrate ((migrate_cases m o).imp_right fun h => ⟨h.1,
      fun found hfound => ?_⟩)
      (deletesIff_read_bind (deletesIff_deleteStandardUser haccount .recreate fun _ =>
        keeps_createManagedAccountLocked _ _ _)))
  all_goals
    cases found with
    | none => exact absurd hfound h.2
    | some _ => exact keeps_hardenStandardUser

theorem deletesIff_ensureFound (haccount : m.account = some account) (call : AccountCall) :
    DeletesIff m o account (ensureFound call m.stateFile m.account.isSome)
      (m.stateFile.isSome = true ∧ LosesPasswords m o) := by
  rw [haccount]
  cases m.stateFile with
  | none =>
    refine ⟨fun h => (by cases h.1), fun _ => ?_⟩
    exact keeps_bind (K := SameDeletions) keeps_generatedUid (fun _ => keeps_writeState _) o m
  | some file =>
    have hcredential := deletesIff_ensureCredential (o := o) haccount call (some file)
    exact ⟨fun h => hcredential.deletes h.2, fun h => hcredential.spares fun h' => h ⟨rfl, h'⟩⟩

/-- A call that finds an account of others deletes it exactly when it recreates the account. -/
theorem deletesIff_call (haccount : m.account = some account)
    (hforeign : account.creator = .others) (call : AccountCall) :
    DeletesIff m o account (ensureAccountStateLocked m.appleSilicon call)
      (RecreatesForeign m (.call call o)) := by
  cases happle : m.appleSilicon with
  | false => exact ⟨fun h => by simp [RecreatesForeign, happle] at h, fun _ => rfl⟩
  | true =>
    have hcall : DeletesIff m o account (ensureAccountStateLocked true call)
        ((o .readState).report = .ok ∧ (o .findUser).report = .ok ∧
          m.stateFile.isSome = true ∧ LosesPasswords m o) := by
      refine deletesIff_read_bind ?_
      rw [userExists_eq]
      exact deletesIff_read_bind (deletesIff_ensureFound haccount call)
    refine ⟨?_, fun hnot => hcall.spares ?_⟩
    · rintro ⟨-, hfile, -, hmanaged, hlegacy, hread, huser, hopen, hbefore, hspawn⟩
      exact hcall.deletes
        ⟨hread, huser, hfile, hmanaged, hlegacy, hopen, hbefore, hspawn, trivial⟩
    · rintro ⟨hread, huser, hfile, hmanaged, hlegacy, hopen, hbefore, hspawn, -⟩
      exact hnot ⟨happle, hfile, ⟨account, haccount, hforeign⟩, hmanaged, hlegacy, hread, huser,
        hopen, hbefore, hspawn⟩

end Foreign

/-! ## The deletions of a run -/

theorem call_stays_owned {m : Machine} {call : AccountCall} {o : AccountSite → Outcome}
    (hm : OnlyOwnDeleted m) (haccount : ∀ account ∈ m.account, account.creator = .talos) :
    OnlyOwnDeleted (m.step (.call call o)) :=
  (keeps_ensureAccountStateLocked (K := StaysOwned) m.appleSilicon call o m ⟨haccount, hm⟩).2

theorem step_onlyOwnDeleted_iff {m : Machine} (hm : OnlyOwnDeleted m) (step : AccountStep) :
    OnlyOwnDeleted (m.step step) ↔ ¬ RecreatesForeign m step := by
  cases step with
  | create uid => exact iff_of_true hm id
  | delete => exact iff_of_true hm id
  | keychain managed legacy => exact iff_of_true hm id
  | call call o =>
    by_cases hforeign : ∃ account, m.account = some account ∧ account.creator = .others
    · obtain ⟨account, haccount, hothers⟩ := hforeign
      have hcall := deletesIff_call (o := o) haccount hothers call
      constructor
      · intro hown hrecreates
        have htalos := hown account (hcall.deletes hrecreates)
        rw [hothers] at htalos
        cases htalos
      · intro h
        rw [OnlyOwnDeleted, Machine.step, hcall.spares h]
        exact hm
    · refine iff_of_true (call_stays_owned hm fun account haccount => ?_) fun h => hforeign h.2.2.1
      cases hcreator : account.creator with
      | talos => rfl
      | others => exact absurd ⟨account, haccount, hcreator⟩ hforeign

end Talos.UpdateAccount
