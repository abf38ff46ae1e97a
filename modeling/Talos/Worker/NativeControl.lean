import Talos.Rust.Text
import Talos.Transition.Run

/-!
# Native Windows Update control

`apply_native_windows_update_control_blocking` on the two policy values and the
backup file. The values are read through the output of `reg.exe query`, whose
layout is that of the Windows tool; every registry and file operation succeeds.

The backup is written once and never again, so it holds the values from before
the first call. The state remembers the values from before the call that last
turned control on, which the source does not keep.
-/

namespace Talos.Worker

open Rust Transition

/-! ## The registry -/

inductive PolicyValue where
  | setDisableUxWuAccess
  | noAutoUpdate

namespace PolicyValue

/-- The key as `reg.exe query` prints it. -/
def key : PolicyValue → String
  | setDisableUxWuAccess =>
    "HKEY_LOCAL_MACHINE\\SOFTWARE\\Policies\\Microsoft\\Windows\\WindowsUpdate"
  | noAutoUpdate => "HKEY_LOCAL_MACHINE\\SOFTWARE\\Policies\\Microsoft\\Windows\\WindowsUpdate\\AU"

def name : PolicyValue → String
  | setDisableUxWuAccess => "SetDisableUXWUAccess"
  | noAutoUpdate => "NoAutoUpdate"

end PolicyValue

/-- The two policy values, each absent or a number. -/
structure Registry where
  setDisableUxWuAccess : Option UInt32
  noAutoUpdate : Option UInt32
deriving DecidableEq

def Registry.get (registry : Registry) : PolicyValue → Option UInt32
  | .setDisableUxWuAccess => registry.setDisableUxWuAccess
  | .noAutoUpdate => registry.noAutoUpdate

def Registry.put (registry : Registry) (value : Option UInt32) : PolicyValue → Registry
  | .setDisableUxWuAccess => { registry with setDisableUxWuAccess := value }
  | .noAutoUpdate => { registry with noAutoUpdate := value }

/-- The line that `reg.exe query` prints for a number, up to the number. -/
def queryLineStart (policy : PolicyValue) : List Char :=
  "    ".toList ++ policy.name.toList ++ "    REG_DWORD   ".toList

def queryLine (policy : PolicyValue) (value : UInt32) : List Char :=
  queryLineStart policy ++ ' ' :: '0' :: 'x' :: hexDigits value.toNat

/-- What `reg.exe query` prints for a number: the lines before that of the value do not
name it. -/
structure RegExe where
  print : PolicyValue → UInt32 → List Char
  layout : ∀ policy value, ∃ before after,
    lines (print policy value) = before ++ queryLine policy value :: after ∧
      ∀ line ∈ before, contains line policy.name.toList = false

/-- The number in the last word of a line. -/
def lineDword (line : List Char) : Option UInt32 :=
  (splitWhitespace line).getLast?.bind fun raw =>
    (u32FromStrRadix (trimStartHexMark raw) 16).or (u32FromStrRadix raw 10)

/-- The command fails when the value is absent. -/
def readRegistryDword (reg : RegExe) (registry : Registry) (policy : PolicyValue) :
    Option UInt32 :=
  ((registry.get policy).map (reg.print policy)).bind fun text =>
    (lines text).findSome? fun line =>
      if contains line policy.name.toList then lineDword line else none

theorem lineDword_hexDigits (start : List Char) (value : UInt32) :
    lineDword (start ++ ' ' :: '0' :: 'x' :: hexDigits value.toNat) = some value := by
  have hword : ∀ c ∈ '0' :: 'x' :: hexDigits value.toNat, isWhitespace c = false := by
    have hdigits := forall_mem_hexDigits (p := fun c => isWhitespace c = false) (by decide)
      value.toNat
    simpa using ⟨by decide, by decide, hdigits⟩
  rw [lineDword, getLast?_splitWhitespace hword (List.cons_ne_nil _ _), Option.bind_some,
    trimStartHexMark_hexDigits, u32FromStrRadix_hexDigits, Option.some_or]

variable (reg : RegExe) (registry : Registry)

/-- The code reads the value that the registry holds. -/
theorem readRegistryDword_eq (policy : PolicyValue) :
    readRegistryDword reg registry policy = registry.get policy := by
  unfold readRegistryDword
  cases registry.get policy with
  | none => rfl
  | some value =>
    obtain ⟨before, after, hlines, hbefore⟩ := reg.layout policy value
    have hskip : before.findSome? (fun line =>
        if contains line policy.name.toList then lineDword line else none) = none :=
      List.findSome?_eq_none_iff.mpr fun line hline => by rw [if_neg (by simp [hbefore line hline])]
    have hline : contains (queryLine policy value) policy.name.toList = true := by
      refine decide_eq_true ⟨"    ".toList,
        "    REG_DWORD   ".toList ++ ' ' :: '0' :: 'x' :: hexDigits value.toNat, ?_⟩
      simp only [queryLine, queryLineStart, List.append_assoc]
    rw [Option.map_some, Option.bind_some, hlines, List.findSome?_append, hskip, Option.none_or,
      List.findSome?_cons, if_pos hline, queryLine, lineDword_hexDigits]

/-! ## The calls -/

structure PolicyBackup where
  createdAt : String
  setDisableUxWuAccess : Option ℕ
  noAutoUpdate : Option ℕ

/-- `before` holds the values from before the call that turned control on, while
it is on. -/
structure ControlState where
  registry : Registry
  backup : Option PolicyBackup
  before : Option Registry

def ControlState.initial (registry : Registry) : ControlState := ⟨registry, none, none⟩

/-- The values that the backup restores. -/
def PolicyBackup.values (backup : PolicyBackup) : Registry :=
  ⟨backup.setDisableUxWuAccess.map UInt32.ofNat, backup.noAutoUpdate.map UInt32.ofNat⟩

/-- The backup that is on file after `backup_native_windows_update_policy`. -/
def backupNativeWindowsUpdatePolicy (reg : RegExe) (createdAt : String) (registry : Registry) :
    Option PolicyBackup → PolicyBackup
  | some backup => backup
  | none =>
    { createdAt
      setDisableUxWuAccess :=
        (readRegistryDword reg registry .setDisableUxWuAccess).map UInt32.toNat
      noAutoUpdate := (readRegistryDword reg registry .noAutoUpdate).map UInt32.toNat }

def setRegistryDword (registry : Registry) (policy : PolicyValue) (value : UInt32) : Registry :=
  registry.put (some value) policy

def deleteRegistryValue (registry : Registry) (policy : PolicyValue) : Registry :=
  registry.put none policy

def restoreRegistryDword (registry : Registry) (policy : PolicyValue) : Option ℕ → Registry
  | some number => setRegistryDword registry policy (.ofNat number)
  | none => deleteRegistryValue registry policy

def restoreNativeWindowsUpdatePolicy (registry : Registry) : Option PolicyBackup → Registry
  | none =>
    deleteRegistryValue (deleteRegistryValue registry .setDisableUxWuAccess) .noAutoUpdate
  | some backup =>
    restoreRegistryDword
      (restoreRegistryDword registry .setDisableUxWuAccess backup.setDisableUxWuAccess)
      .noAutoUpdate backup.noAutoUpdate

def applyNativeWindowsUpdateControl (reg : RegExe) (state : ControlState) (createdAt : String)
    (enabled : Bool) : ControlState :=
  let backup := backupNativeWindowsUpdatePolicy reg createdAt state.registry state.backup
  if enabled then
    { registry :=
        setRegistryDword (setRegistryDword state.registry .setDisableUxWuAccess 1) .noAutoUpdate 1
      backup := some backup
      before := some (state.before.getD state.registry) }
  else
    { registry := restoreNativeWindowsUpdatePolicy state.registry (some backup)
      backup := some backup
      before := none }

inductive ControlStep where
  | call (createdAt : String) (enabled : Bool)
  /-- A change of the values by others, which happens only while control is
  off. -/
  | change (registry : Registry)

def ControlState.step (reg : RegExe) (state : ControlState) : ControlStep → ControlState
  | .call createdAt enabled => applyNativeWindowsUpdateControl reg state createdAt enabled
  | .change registry => if state.before.isNone then { state with registry } else state

/-! ## What the calls leave -/

theorem restoreNativeWindowsUpdatePolicy_eq (backup : PolicyBackup) :
    restoreNativeWindowsUpdatePolicy registry (some backup) = backup.values := by
  obtain ⟨createdAt, access, auto⟩ := backup
  cases access <;> cases auto <;> rfl

theorem backupNativeWindowsUpdatePolicy_values (createdAt : String) (registry : Registry)
    (backup : Option PolicyBackup) :
    (backupNativeWindowsUpdatePolicy reg createdAt registry backup).values
      = (backup.map PolicyBackup.values).getD registry := by
  cases backup with
  | some backup => rfl
  | none =>
    obtain ⟨access, auto⟩ := registry
    simp only [backupNativeWindowsUpdatePolicy, PolicyBackup.values, readRegistryDword_eq,
      Registry.get, Option.map_map, Option.map_none, Option.getD_none, Registry.mk.injEq]
    cases access <;> cases auto <;> simp

/-- What a call has to leave: both values set when it turns control on, and when
it turns control off the values from before, which are the present ones if control
is off already. -/
def ControlState.expected (state : ControlState) (enabled : Bool) : Registry :=
  if enabled then ⟨some 1, some 1⟩ else state.before.getD state.registry

def HandsBack (reg : RegExe) (state : ControlState) (createdAt : String) (enabled : Bool) : Prop :=
  (applyNativeWindowsUpdateControl reg state createdAt enabled).registry = state.expected enabled

/-- A call made while control is off finds no backup or the present values in
it. -/
def FindsCurrentBackup (state : ControlState) : ControlStep → Prop
  | .call .. => state.before = none →
      ∀ backup, state.backup = some backup → backup.values = state.registry
  | .change _ => True

/-- While control is on, the backup holds the values from before. -/
def BackedUp (state : ControlState) : Prop :=
  ∀ before, state.before = some before →
    ∃ backup, state.backup = some backup ∧ backup.values = before

variable (state : ControlState)

theorem handsBack_enabled (createdAt : String) : HandsBack reg state createdAt true := rfl

/-- What turning control off restores. -/
def ControlState.restored : Registry := (state.backup.map PolicyBackup.values).getD state.registry

theorem apply_disabled_registry (createdAt : String) :
    (applyNativeWindowsUpdateControl reg state createdAt false).registry = state.restored := by
  rw [ControlState.restored, ← backupNativeWindowsUpdatePolicy_values reg createdAt]
  exact restoreNativeWindowsUpdatePolicy_eq _ _

theorem apply_enabled_backup (createdAt : String) :
    ∃ backup, (applyNativeWindowsUpdateControl reg state createdAt true).backup = some backup ∧
      backup.values = state.restored :=
  ⟨_, rfl, backupNativeWindowsUpdatePolicy_values reg createdAt state.registry state.backup⟩

theorem BackedUp.restored_eq {state : ControlState} (h : BackedUp state) {createdAt : String}
    {enabled : Bool} (hcall : FindsCurrentBackup state (.call createdAt enabled)) :
    state.restored = state.before.getD state.registry := by
  unfold ControlState.restored
  cases hstate : state.before with
  | some before =>
    obtain ⟨backup, hbackup, hvalues⟩ := h before hstate
    rw [hbackup, Option.map_some, Option.getD_some, Option.getD_some, hvalues]
  | none =>
    cases hold : state.backup with
    | none => rfl
    | some old => exact hcall hstate old hold

theorem step_backedUp {state : ControlState} {action : ControlStep} (h : BackedUp state)
    (hstep : FindsCurrentBackup state action) : BackedUp (state.step reg action) := by
  intro before hbefore
  cases action with
  | change registry =>
    by_cases hoff : state.before.isNone = true
    · rw [ControlState.step, if_pos hoff] at hbefore
      rw [Option.isNone_iff_eq_none.mp hoff] at hbefore
      cases hbefore
    · rw [ControlState.step, if_neg hoff] at hbefore ⊢
      exact h before hbefore
  | call createdAt enabled =>
    cases enabled with
    | false => cases hbefore
    | true =>
      obtain ⟨backup, hbackup, hvalues⟩ := apply_enabled_backup reg state createdAt
      exact ⟨backup, hbackup, hvalues.trans ((h.restored_eq hstep).trans (Option.some.inj hbefore))⟩

/-- A call that turns control off leaves the expected values exactly when the
backup, if there is one, holds them. -/
theorem handsBack_disabled_iff (createdAt : String) : HandsBack reg state createdAt false ↔
    state.restored = state.before.getD state.registry := by
  rw [HandsBack, apply_disabled_registry]
  rfl

theorem handsBack_of_backedUp {state : ControlState} (h : BackedUp state) (createdAt : String)
    {enabled : Bool} (hcall : FindsCurrentBackup state (.call createdAt enabled)) :
    HandsBack reg state createdAt enabled := by
  cases enabled with
  | true => exact handsBack_enabled reg state createdAt
  | false => exact (handsBack_disabled_iff reg state createdAt).mpr (h.restored_eq hcall)

theorem findsCurrentBackup_iff {state : ControlState} (hoff : state.before = none)
    (createdAt : String) (enabled : Bool) :
    FindsCurrentBackup state (.call createdAt enabled) ↔ state.restored = state.registry := by
  unfold ControlState.restored
  cases hbackup : state.backup with
  | none => simp [FindsCurrentBackup, hbackup]
  | some backup => simp [FindsCurrentBackup, hoff, hbackup]

/-- Over every history, turning control on sets both values, and the calls hand
the policy back when each call made while control is off finds a current backup.
That is what it takes: in any state with control off, turning control off leaves
the values alone, and turning it on and off again returns to them, exactly when
the backup is current. -/
theorem policy_handed_back_iff (reg : RegExe) (registry : Registry) (steps : List ControlStep)
    (createdAt later : String) :
    HandsBack reg (run (ControlState.step reg) (.initial registry) steps) createdAt true ∧
    (along (ControlState.step reg) FindsCurrentBackup (.initial registry) steps → ∀ enabled,
      FindsCurrentBackup (run (ControlState.step reg) (.initial registry) steps)
        (.call createdAt enabled) →
      HandsBack reg (run (ControlState.step reg) (.initial registry) steps) createdAt enabled) ∧
    (∀ state, state = run (ControlState.step reg) (.initial registry) steps → state.before = none →
      (HandsBack reg state createdAt false ↔ FindsCurrentBackup state (.call createdAt false)) ∧
      ((applyNativeWindowsUpdateControl reg
          (applyNativeWindowsUpdateControl reg state createdAt true) later false).registry =
            state.registry ↔
        FindsCurrentBackup state (.call createdAt true))) := by
  refine ⟨handsBack_enabled reg _ createdAt, ?_, ?_⟩
  · intro hsteps enabled hcall
    have hbacked : BackedUp (run (ControlState.step reg) (.initial registry) steps) :=
      run_invariant_along (fun state action h hstep => step_backedUp reg h hstep)
        (fun before hbefore => by cases hbefore) hsteps
    exact handsBack_of_backedUp reg hbacked createdAt hcall
  · intro state _ hoff
    constructor
    · rw [handsBack_disabled_iff, findsCurrentBackup_iff hoff, hoff, Option.getD_none]
    · obtain ⟨backup, hbackup, hvalues⟩ := apply_enabled_backup reg state createdAt
      rw [apply_disabled_registry, ControlState.restored, hbackup, Option.map_some,
        Option.getD_some, hvalues, findsCurrentBackup_iff hoff]

/-- An empty line, the key, the value and an empty line. -/
def RegExe.plain : RegExe where
  print policy value := '\r' :: '\n' :: (policy.key.toList ++ '\r' :: '\n' ::
    (queryLine policy value ++ '\r' :: '\n' :: ['\r', '\n']))
  layout policy value := by
    have hkey : '\n' ∉ policy.key.toList := by cases policy <;> decide
    have hline : '\n' ∉ queryLine policy value := by
      have hstart : '\n' ∉ queryLineStart policy := by cases policy <;> decide
      have hdigits : '\n' ∉ hexDigits value.toNat := fun hmem =>
        forall_mem_hexDigits (p := (· ≠ '\n')) (by decide) _ _ hmem rfl
      simp [queryLine, hstart, hdigits]
    have hempty : ∀ rest, lines ('\r' :: '\n' :: rest) = [] :: lines rest :=
      fun rest => @lines_cons [] List.not_mem_nil rest
    refine ⟨[[], policy.key.toList], [[]], ?_, ?_⟩
    · rw [hempty, lines_cons hkey, lines_cons hline, hempty, lines_nil]
      rfl
    · cases policy <;> decide +kernel

theorem policy_handed_back_iff_turnedOn : (applyNativeWindowsUpdateControl .plain
      (run (ControlState.step .plain) (.initial ⟨some 0, none⟩) [.call "t" true]) "t"
      false).registry = ⟨some 0, none⟩ :=
  (policy_handed_back_iff .plain ⟨some 0, none⟩ [.call "t" true] "t" "t").2.1
    ⟨fun _ _ hbackup => (by cases hbackup), trivial⟩ false (fun hoff => by cases hoff)

/-- Control was on and off once; then the values are changed by others. Turning
control off again, with or without turning it on, brings the old values back. -/
theorem old_backup_overwrites_values : (run (ControlState.step .plain) (.initial ⟨none, none⟩)
      [.call "t" true, .call "t" false, .change ⟨some 0, some 1⟩]).registry = ⟨some 0, some 1⟩ ∧
    (run (ControlState.step .plain) (.initial ⟨none, none⟩)
      [.call "t" true, .call "t" false, .change ⟨some 0, some 1⟩, .call "t" false]).registry
        = ⟨none, none⟩ ∧
    (run (ControlState.step .plain) (.initial ⟨none, none⟩)
      [.call "t" true, .call "t" false, .change ⟨some 0, some 1⟩, .call "t" true,
        .call "t" false]).registry = ⟨none, none⟩ := by
  decide

end Talos.Worker
