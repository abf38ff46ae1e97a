import Talos.SecureNotes.Notes

/-!
# What the calls about secure notes obey

A call reads a note at most once. A transaction writes only rows that it holds, after it has
checked them, and releases all of them at its end. A call that returns the content of a note
has found it available, and then a time before the note expires.
-/

namespace Talos.SecureNotes

open Interactive Program

abbrev History := List (Event Op.Answer)

/-! ## Rows that are held -/

def heldStep (rows : List Note) : Event Op.Answer → List Note
  | ⟨.query (.selectForUpdate _), .ok (rows, _)⟩ => rows
  | ⟨.query (.commit ..), _⟩ | ⟨.query (.rollback _), _⟩ => []
  | _ => rows

/-- The rows that the transaction of a call holds. -/
def held (h : History) : List Note := h.foldl heldStep []

@[simp] theorem held_concat (h : History) (event : Event Op.Answer) :
    held (h ++ [event]) = heldStep (held h) event := by
  rw [held, List.foldl_append]
  rfl

def readsNote : Event Op.Answer → Bool
  | ⟨.query (.selectForUpdate _), _⟩ | ⟨.query (.findNoteOfJob ..), _⟩ => true
  | _ => false

/-! ## The rule -/

/-- The job was found, and the note may be bound to it. -/
def Bindable (job : JobRow) (jobId : String) (note : Note) : Prop :=
  (truthy note.jobId = true → note.jobId = some jobId) ∧
    note.organizationId = job.organizationId ∧ note.recipientUserId = job.userId

/-- What a transaction writes it has checked. -/
def Checked (h : History) : NoteWrite → Prop
  | .delete id => ∃ note ∈ held h, note.id = id
  | .destroy id _ => ∃ note ∈ held h, note.id = id ∧ note.available = true
  | .bind handles job => ∃ jobId t,
      (⟨.query (.findJob jobId), .ok (some job, t)⟩ : Event Op.Answer) ∈ h ∧
        ∀ handle ∈ handles, ∃ note ∈ held h, note.secretHandle = handle ∧ Bindable job jobId note

variable (config : Config)

/-- What a call has done that reveals a note to a user. -/
def Revealed (code userId content : String) (h : History) : Prop :=
  ∃ rows note t now destroyedAt returned t',
    rows.head? = some note ∧ note.available = true ∧ note.recipientUserId = userId ∧
    config.content note = some content ∧ now < note.expiresAt ∧
    h = [⟨.query (.selectForUpdate (.code code)), .ok (rows, t)⟩, ⟨.clock, now⟩,
      ⟨.clock, destroyedAt⟩,
      ⟨.query (.commit (some (.destroy note.id destroyedAt)) (rows.map Note.id)),
        .ok (returned, t')⟩]

/-- What a call has done that gives the content of a note to a runner. -/
def Resolved (input : ResolveInput) (secret : String) (h : History) : Prop :=
  ∃ job t₀ before note t now,
    (⟨.query (.findJob input.jobId), .ok (some job, t₀)⟩ : Event Op.Answer) ∈ before ∧
    truthy job.leaseId = true ∧ job.leaseId = input.leaseId ∧
    note.available = true ∧ config.content note = some secret ∧ now < note.expiresAt ∧
    h = before ++ [⟨.query (.findNoteOfJob input.secretHandle input.jobId), .ok (some note, t)⟩,
      ⟨.clock, now⟩]

def noteRule (call : Call) (h : History) : Op → Prop
  | .query (.selectForUpdate _) => held h = [] ∧ ∀ event ∈ h, readsNote event = false
  | .query (.findNoteOfJob ..) => ∀ event ∈ h, readsNote event = false
  | .query (.commit write locked) =>
    locked = (held h).map Note.id ∧ ∀ w ∈ write, Checked h w
  | .query (.rollback locked) => locked = (held h).map Note.id
  | .reply (.revealed (.revealed content _)) =>
    ∃ code userId, call = .reveal code userId ∧ Revealed config code userId content h
  | .reply (.resolved secret) =>
    ∃ input, call = .resolve input ∧ Resolved config input secret.secret h
  | _ => True

/-- The call may reply with the value. -/
abbrev Earned {α : Type} (call : Call) (reply : α → Reply) (h : History) (value : α) : Prop :=
  noteRule config call h (.reply (reply value))

/-! ## Rules of the parts -/

section Parts

variable {Q : History → Op → Prop} {h : History} {α : Type} {R : History → α → Prop}

theorem safe_query_then {s : Statement} {f : s.Result → Handler α} (hrule : Q h (.query s))
    (hok : ∀ value t, Safe Q (h ++ [⟨.query s, .ok (value, t)⟩]) (f value) (OnOk R)) :
    Safe Q h (query s >>= f) (OnOk R) := by
  refine safe_bind_iff.mpr ⟨hrule, fun answer => ?_⟩
  cases answer with
  | ok result => exact hok result.1 result.2
  | error e => trivial

/-- A transaction that is rolled back ends the call. -/
theorem safe_rollback {s : Statement} {e : String} (hrule : Q h (.query s)) :
    Safe Q h ((query s).attempt >>= fun _ => fail e) (OnOk R) := by
  refine safe_bind_iff.mpr (safe_attempt.mpr ⟨hrule, fun answer => ?_⟩)
  cases answer <;> trivial

theorem safe_dateNow_then {f : Timestamp → Handler α} (hrule : Q h .clock)
    (hok : ∀ now, Safe Q (h ++ [⟨.clock, now⟩]) (f now) (OnOk R)) :
    Safe Q h (dateNow >>= f) (OnOk R) :=
  safe_bind_iff.mpr ⟨hrule, hok⟩

end Parts

/-! ## The calls -/

section Calls

variable (config : Config) (call : Call)

/-- What asks for nothing but the time reads no note and keeps the rows. -/
theorem safe_clock {α : Type} {p : Handler α} {S : Except String α → Prop}
    (hp : Confined (· = .clock) p S) (h : History) :
    Safe (noteRule config call) h p fun h' outcome =>
      (held h' = held h ∧ ∀ event ∈ h', readsNote event = true → event ∈ h) ∧ S outcome := by
  refine hp.safe_of_invariant
    (J := fun h' => held h' = held h ∧ ∀ event ∈ h', readsNote event = true → event ∈ h)
    ?_ ?_ (fun _ _ hh hS => ⟨hh, hS⟩) ⟨rfl, fun _ hmem _ => hmem⟩
  · rintro h' op now hh rfl
    refine ⟨by rw [held_concat]; exact hh.1, fun event hmem hreads => ?_⟩
    rcases List.mem_append.mp hmem with hmem | hmem
    · exact hh.2 event hmem hreads
    · cases List.mem_singleton.mp hmem
      cases hreads
  · rintro h' op - rfl
    trivial

theorem safe_revealNote {code userId : String} {rows : List Note} {t : Timestamp} :
    Safe (noteRule config (.reveal code userId))
      [⟨.query (.selectForUpdate (.code code)), .ok (rows, t)⟩] (revealNote config userId rows)
      (OnOk (Earned config (.reveal code userId) .revealed)) := by
  have hplain : ∀ {h : History} {write : Option NoteWrite} {reveal : Reveal},
      held h = rows → (∀ w ∈ write, Checked h w) →
      (∀ h, Earned config (.reveal code userId) .revealed h reveal) →
      Safe (noteRule config (.reveal code userId)) h (commitAnd write rows reveal)
        (OnOk (Earned config (.reveal code userId) .revealed)) := by
    intro h write reveal hheld hchecked hearned
    exact safe_query_then ⟨by rw [hheld], hchecked⟩ fun _ _ => hearned _
  unfold revealNote
  cases hrows : rows.head? with
  | none => exact hplain rfl (fun _ h => nomatch h) fun _ => trivial
  | some note =>
    have hnote : note ∈ rows := List.mem_of_mem_head? hrows
    refine safe_dateNow_then trivial fun now => ?_
    refine safe_ite.mpr ⟨fun _ => ?_, fun htime => ?_⟩
    · refine hplain rfl (fun w hw => ?_) fun _ => trivial
      cases hw
      exact ⟨note, hnote, rfl⟩
    refine safe_ite.mpr ⟨fun _ => ?_, fun hrecipient => ?_⟩
    · exact hplain rfl (fun _ h => nomatch h) fun _ => trivial
    refine safe_ite.mpr ⟨fun _ => ?_, fun havailable => ?_⟩
    · exact hplain rfl (fun _ h => nomatch h) fun _ => trivial
    have havailable : note.available = true := by simpa using havailable
    cases hcontent : config.content note with
    | none => exact safe_rollback rfl
    | some content =>
      refine safe_dateNow_then trivial fun destroyedAt => ?_
      refine safe_query_then ⟨rfl, fun w hw => ?_⟩ fun returned t' => ?_
      · cases hw
        exact ⟨note, hnote, rfl, havailable⟩
      · exact ⟨code, userId, rfl, rows, note, t, now, destroyedAt, returned, t', hrows, havailable,
          not_not.mp hrecipient, hcontent, lt_of_not_ge htime, rfl⟩

theorem safe_revealSecureNoteForUser (code userId : String) :
    Safe (noteRule config (.reveal code userId)) [] (revealSecureNoteForUser config code userId)
      (OnOk (Earned config (.reveal code userId) .revealed)) :=
  safe_query_then ⟨rfl, fun _ hmem => nomatch hmem⟩ fun _ _ => safe_revealNote config

theorem safe_checkSecureNoteForUser (code userId : String) :
    Safe (noteRule config call) [] (checkSecureNoteForUser code userId)
      (OnOk (Earned config call .checked)) := by
  refine safe_query_then trivial fun note t => ?_
  cases note with
  | none => trivial
  | some note =>
    refine safe_dateNow_then trivial fun now => ?_
    refine safe_ite.mpr ⟨fun _ => safe_query_then trivial fun _ _ => trivial, fun _ => ?_⟩
    exact safe_ite.mpr ⟨fun _ => trivial, fun _ => safe_ite.mpr
      ⟨fun _ => trivial, fun _ => trivial⟩⟩

theorem safe_resolveNote {input : ResolveInput} {job : JobRow} {t₀ : Timestamp} {h : History}
    (hreads : ∀ event ∈ h, readsNote event = false)
    (hjob : (⟨.query (.findJob input.jobId), .ok (some job, t₀)⟩ : Event Op.Answer) ∈ h)
    (hlease : truthy job.leaseId = true) (hlease' : job.leaseId = input.leaseId) :
    Safe (noteRule config (.resolve input)) h (resolveNote config input job)
      (OnOk (Earned config (.resolve input) .resolved)) := by
  refine safe_query_then hreads fun note t => ?_
  cases note with
  | none => trivial
  | some note =>
    refine safe_ite.mpr ⟨fun _ => trivial, fun _ => ?_⟩
    refine safe_dateNow_then trivial fun now => ?_
    refine safe_ite.mpr ⟨fun _ => safe_query_then trivial fun _ _ => trivial, fun htime => ?_⟩
    refine safe_ite.mpr ⟨fun _ => trivial, fun havailable => ?_⟩
    cases hcontent : config.content note with
    | none => trivial
    | some secret =>
      exact ⟨input, rfl, job, t₀, h, note, t, now, hjob, hlease, hlease',
        by simpa using havailable, hcontent, lt_of_not_ge htime, by simp⟩

theorem confined_ensureLease (input : ResolveInput) (job : JobRow) :
    Confined (· = .clock) (ensureLease input job) fun outcome => outcome = .ok () →
      truthy job.leaseId = true ∧ job.leaseId = input.leaseId := by
  unfold ensureLease
  refine confined_ite.mpr ⟨fun _ hok => (nomatch hok), fun hmatch => ?_⟩
  have hlease : truthy job.leaseId = true ∧ job.leaseId = input.leaseId := by simpa using hmatch
  refine confined_ite.mpr ⟨fun _ hok => (nomatch hok), fun _ => ?_⟩
  cases job.leaseExpiresAt with
  | none => exact fun _ => hlease
  | some expiresAt =>
    exact confined_bind_iff.mpr ⟨rfl, fun now => confined_ite.mpr
      ⟨fun _ _ => hlease, fun _ _ => hlease⟩⟩

theorem safe_resolveGeneratedSecretForRunner (input : ResolveInput) :
    Safe (noteRule config (.resolve input)) [] (resolveGeneratedSecretForRunner config input)
      (OnOk (Earned config (.resolve input) .resolved)) := by
  refine safe_query_then trivial fun job t₀ => ?_
  cases job with
  | none => trivial
  | some job =>
    refine (safe_clock config _ (confined_ensureLease input job) _).then fun h _ hpre hh => ?_
    obtain ⟨hlease, hlease'⟩ := hh.2 rfl
    refine safe_resolveNote config (fun event hmem => ?_) (hpre.subset List.mem_cons_self)
      hlease hlease'
    refine Bool.not_eq_true _ ▸ fun hreads => ?_
    cases List.mem_singleton.mp (hh.1.2 event hmem hreads)
    cases hreads

/-! ## Binding -/

/-- The checks of the handles ask for nothing but the time. -/
theorem confined_attachableNotes (input : AttachInput) (job : JobRow) (rows : List Note)
    (handles : List String) :
    Confined (· = .clock) (attachableNotes input job rows handles) fun outcome =>
      outcome = .ok () → ∀ handle ∈ handles, ∃ note ∈ rows, note.secretHandle = handle ∧
        (truthy note.jobId = true → note.jobId = some input.jobId) ∧
        note.organizationId = input.organizationId ∧ note.recipientUserId = input.userId := by
  have hnote : ∀ handle, Confined (· = .clock) (attachableNote input job rows handle)
      fun outcome => outcome = .ok () → ∃ note ∈ rows, note.secretHandle = handle ∧
        (truthy note.jobId = true → note.jobId = some input.jobId) ∧
        note.organizationId = input.organizationId ∧ note.recipientUserId = input.userId := by
    intro handle
    unfold attachableNote
    cases hfind : rows.find? (·.secretHandle = handle) with
    | none => exact fun hok => nomatch hok
    | some note =>
      refine confined_ite.mpr ⟨fun _ hok => (nomatch hok), fun howner => ?_⟩
      refine confined_bind_iff.mpr ⟨rfl, fun now => ?_⟩
      refine confined_ite.mpr ⟨fun _ hok => (nomatch hok), fun _ => ?_⟩
      refine confined_ite.mpr ⟨fun _ hok => (nomatch hok), fun _ => ?_⟩
      refine confined_ite.mpr ⟨fun _ hok => (nomatch hok), fun hbound => ?_⟩
      refine confined_ite.mpr ⟨fun _ hok => (nomatch hok), fun _ _ => ?_⟩
      rw [not_or, not_not, not_not] at howner
      refine ⟨note, List.mem_of_find?_eq_some hfind, by simpa using List.find?_some hfind,
        fun htruthy => ?_, howner⟩
      simpa [htruthy] using hbound
  induction handles with
  | nil => exact fun _ _ hmem => nomatch hmem
  | cons handle handles ih =>
    refine confined_bind_iff.mpr ((hnote handle).mono (fun _ h => h) fun outcome hfirst => ?_)
    cases outcome with
    | error e => exact fun hok => nomatch hok
    | ok value =>
      refine ih.mono (fun _ h => h) fun outcome hrest hok handle' hmem => ?_
      rcases List.mem_cons.mp hmem with rfl | hmem
      · exact hfirst rfl
      · exact hrest hok handle' hmem

theorem safe_bindNotes {input : AttachInput} {job : JobRow} {t₀ : Timestamp} {rows : List Note}
    {h : History} (hheld : held h = rows)
    (hjob : (⟨.query (.findJob input.jobId), .ok (some job, t₀)⟩ : Event Op.Answer) ∈ h)
    (howner : job.organizationId = input.organizationId ∧ job.userId = input.userId) :
    Safe (noteRule config call) h (bindNotes config input job rows)
      (OnOk (Earned config call .attached)) := by
  refine safe_bind_iff.mpr (safe_attempt.mpr ((safe_clock config call
    (confined_attachableNotes input job rows input.handles) h).mono fun h' outcome hpre hh => ?_))
  obtain ⟨⟨hheld', -⟩, hchecked⟩ := hh
  have hrows : held h' = rows := hheld'.trans hheld
  cases outcome with
  | error e => exact safe_rollback (congrArg (List.map Note.id) hrows.symm)
  | ok value =>
    refine safe_query_then ⟨congrArg (List.map Note.id) hrows.symm, fun w hw => ?_⟩
      fun _ _ => trivial
    cases hw
    refine ⟨input.jobId, t₀, hpre.subset hjob, fun handle hmem => ?_⟩
    obtain ⟨note, hnote, hhandle, hbound, horganization, hrecipient⟩ := hchecked rfl handle hmem
    exact ⟨note, hrows ▸ hnote, hhandle, hbound, horganization.trans howner.1.symm,
      hrecipient.trans howner.2.symm⟩

theorem safe_attachGeneratedSecretsToRunnerJob (input : AttachInput) :
    Safe (noteRule config call) [] (attachGeneratedSecretsToRunnerJob config input)
      (OnOk (Earned config call .attached)) := by
  unfold attachGeneratedSecretsToRunnerJob
  refine safe_ite.mpr ⟨fun _ => trivial, fun _ => ?_⟩
  cases input.handles.find? (!isSecretHandle ·) with
  | some handle => trivial
  | none =>
    refine safe_query_then trivial fun job t₀ => ?_
    cases job with
    | none => trivial
    | some job =>
      refine safe_ite.mpr ⟨fun _ => trivial, fun howner => ?_⟩
      refine safe_ite.mpr ⟨fun _ => trivial, fun _ => ?_⟩
      rw [not_or, not_not, not_not] at howner
      refine safe_query_then ⟨rfl, fun event hmem => ?_⟩ fun rows t => ?_
      · cases List.mem_singleton.mp hmem
        rfl
      · exact safe_bindNotes config call rfl
          (List.mem_append_left _ (List.mem_singleton_self _)) howner

end Calls

theorem safe_replyWith {config : Config} {call : Call} {α : Type} {handler : Handler α}
    {reply : α → Reply}
    (hhandler : Safe (noteRule config call) [] handler (OnOk (Earned config call reply))) :
    Safe (noteRule config call) [] (replyWith handler reply) fun _ _ => True :=
  hhandler.bind (fun _ _ _ hearned => ⟨hearned, fun _ => trivial⟩) fun _ _ _ _ => trivial

theorem safe_program (call : Call) :
    Safe (noteRule config call) [] (call.program config) fun _ _ => True := by
  cases call with
  | attach input => exact safe_replyWith (safe_attachGeneratedSecretsToRunnerJob config _ input)
  | check code userId => exact safe_replyWith (safe_checkSecureNoteForUser config _ code userId)
  | reveal code userId => exact safe_replyWith (safe_revealSecureNoteForUser config code userId)
  | resolve input => exact safe_replyWith (safe_resolveGeneratedSecretForRunner config input)

end Talos.SecureNotes
