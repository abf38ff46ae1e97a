import Talos.Rust.Json
import Talos.Rust.Text

/-!
# The final checks before an OS upgrade

`collect_final_gate_evidence` reads the output of one command, which is any JSON
here, and lists the reasons not to start Windows Setup. `passed_iff` says what a
passed check has found. That is less than what the checks are for: an error of
the BitLocker query is not read, and a volume without a protection status, or
with a text for it that is no known word, counts as unprotected.
-/

namespace Talos.Upgrade

open Rust

structure FeatureUpgradeIsoMedia where
  id : String
  displayName : String
  language : Option String
  sha256 : Option String
  sizeBytes : Option ℕ

structure FinalGateEvidence where
  passed : Bool
  freeBytesRequired : ℕ
  systemDrive : Option String
  systemDriveFreeBytes : Option ℕ
  systemDefaultUiLanguage : Option String
  isoLanguage : Option String
  bitlockerStatuses : List Value
  failureReasons : List String

/-! ## The source -/

def arrayish : Option Value → List Value
  | some (.array items) => items
  | some .null => []
  | none => []
  | some item => [item]

def protectionStatus (value : Value) : Option Value :=
  (value.get "ProtectionStatus").or (value.get "protectionStatus")

def textContains (text part : String) : Bool := contains text.toList part.toList

variable (value : Value)

def bitlockerProtectedOrUnknown : Bool :=
  match protectionStatus value with
  | some (.number number) => (number.asI64.map fun value => decide (value ≠ 0)).getD true
  | some (.string text) =>
    let lower := toAsciiLowercase text
    textContains lower "on" || textContains lower "protected" || textContains lower "unknown"
  | some _ => true
  | none => false

def windows11UpgradeRequiresExactLanguage (targetProduct targetVersion : String) : Bool :=
  if textContains (toAsciiLowercase targetProduct) "windows 11" then
    match (toAsciiLowercase targetVersion).toList.reverse with
    | '2' :: 'h' :: year =>
      ((u32FromStrRadix year.reverse 10).map fun year => decide (22 ≤ year)).getD true
    | _ => true
  else false

def normalizeLocaleForCompare (value : String) : List Char :=
  ((trim value).toList.map fun c => if c = '_' then '-' else c).map Char.toLower

def localesMatchExactly (left right : String) : Bool :=
  normalizeLocaleForCompare left = normalizeLocaleForCompare right

def nonBlank (text : Option String) : Option String := text.filter fun text => trim text ≠ ""

def freeBytesReasons (freeBytes : Option ℕ) (requiredFreeBytes : ℕ) : List String :=
  if freeBytes.getD 0 < requiredFreeBytes then
    ["System drive has " ++ toString (freeBytes.getD 0) ++ " bytes free; "
      ++ toString requiredFreeBytes ++ " bytes are required"]
  else []

def bitlockerReasons (statuses : List Value) : List String :=
  if statuses.any bitlockerProtectedOrUnknown then
    ["BitLocker protection is enabled or unknown; suspend BitLocker before upgrade"]
  else []

def languageReasons : Option String → Option String → List String
  | some mediaLanguage, some deviceLanguage =>
    if localesMatchExactly mediaLanguage deviceLanguage then []
    else
      ["Selected ISO language " ++ mediaLanguage
        ++ " does not match device system default UI language " ++ deviceLanguage
        ++ "; Windows 11 in-place upgrades require matching media language"]
  | some mediaLanguage, none =>
    ["Could not verify device system default UI language for ISO language " ++ mediaLanguage]
  | none, _ => []

def deviceLanguage : Option String :=
  nonBlank ((value.get "systemDefaultUiLanguage").bind Value.asStr)

def freeBytes (value : Value) : Option ℕ := (value.get "freeBytes").bind Value.asU64

/-- `collect_final_gate_evidence`, on the output of its command. -/
def collectFinalGateEvidence (requiredFreeBytes : ℕ) (isoMedia : FeatureUpgradeIsoMedia)
    (targetProduct targetVersion : String) : FinalGateEvidence :=
  let statuses := arrayish (value.get "bitlocker")
  let isoLanguage := nonBlank isoMedia.language
  let failureReasons := freeBytesReasons (freeBytes value) requiredFreeBytes
    ++ bitlockerReasons statuses
    ++ if windows11UpgradeRequiresExactLanguage targetProduct targetVersion then
        languageReasons isoLanguage (deviceLanguage value)
      else []
  { passed := failureReasons.isEmpty
    freeBytesRequired := requiredFreeBytes
    systemDrive := (value.get "systemDrive").bind Value.asStr
    systemDriveFreeBytes := freeBytes value
    systemDefaultUiLanguage := deviceLanguage value
    isoLanguage := isoLanguage
    bitlockerStatuses := statuses
    failureReasons := failureReasons }

/-! ## What a passed check has found -/

theorem freeBytesReasons_eq_nil (free : Option ℕ) (required : ℕ) :
    freeBytesReasons free required = [] ↔ required ≤ free.getD 0 := by
  unfold freeBytesReasons
  split
  next h => simpa using h
  next h => simpa using h

theorem bitlockerReasons_eq_nil (statuses : List Value) : bitlockerReasons statuses = [] ↔
      ∀ status ∈ statuses, bitlockerProtectedOrUnknown status = false := by
  unfold bitlockerReasons
  split
  next h => simpa using h
  next h => simpa using h

theorem languageReasons_eq_nil (media device : Option String) : languageReasons media device = [] ↔
      ∀ mediaLanguage ∈ media, ∃ deviceLanguage ∈ device,
        localesMatchExactly mediaLanguage deviceLanguage = true := by
  cases media with
  | none => simp [languageReasons]
  | some mediaLanguage =>
    cases device with
    | none => simp [languageReasons]
    | some deviceLanguage => simp [languageReasons]

/-- The checks that have to pass. -/
theorem passed_iff (required : ℕ) (media : FeatureUpgradeIsoMedia) (product version : String) :
    (collectFinalGateEvidence value required media product version).passed = true ↔
      required ≤ (freeBytes value).getD 0 ∧
      (∀ status ∈ arrayish (value.get "bitlocker"), bitlockerProtectedOrUnknown status = false) ∧
      (windows11UpgradeRequiresExactLanguage product version = true →
        ∀ mediaLanguage ∈ nonBlank media.language, ∃ device ∈ deviceLanguage value,
          localesMatchExactly mediaLanguage device = true) := by
  simp only [collectFinalGateEvidence, List.isEmpty_iff, List.append_eq_nil_iff,
    freeBytesReasons_eq_nil, bitlockerReasons_eq_nil, and_assoc]
  split
  next h => simp [h, languageReasons_eq_nil]
  next h => simp [h]

/-! ## The gates -/

/-- The same letter up to case, or two separators. -/
def SameLetter (c d : Char) : Prop :=
  c.toLower = d.toLower ∨ (c = '-' ∨ c = '_') ∧ (d = '-' ∨ d = '_')

/-- The same language tag up to case and separator; blanks around it do not
count. -/
def SameLanguage (left right : String) : Prop :=
  List.Forall₂ SameLetter (trim left).toList (trim right).toList

def IsOffText (text : String) : Prop :=
  toAsciiLowercase text = "off" ∨ toAsciiLowercase text = "0"

/-- The volume states the protection status 0 or off. -/
def ReportsOff (volume : Value) : Prop :=
  match protectionStatus volume with
  | some (.number number) => number.asI64 = some 0
  | some (.string text) => IsOffText text
  | _ => False

/-- The error of the BitLocker query is absent or `null`. -/
def NoBitlockerError : Prop :=
  ∀ error, value.get "bitlockerError" = some error → error = .null

/-- What the output of the command has to say before an upgrade starts. -/
structure CheckPasses (value : Value) (required : ℕ) (media : FeatureUpgradeIsoMedia)
    (product version : String) : Prop where
  free : ∃ bytes ∈ freeBytes value, required ≤ bytes
  queried : NoBitlockerError value
  off : ∀ volume ∈ arrayish (value.get "bitlocker"), ReportsOff volume
  language : windows11UpgradeRequiresExactLanguage product version = true →
    ∀ mediaLanguage ∈ nonBlank media.language, ∃ device ∈ deviceLanguage value,
      SameLanguage mediaLanguage device

/-- The output says everything that it has to: how much is free even when nothing
is required, no error of the BitLocker query, and for every volume a status that
is no text or is the text off or 0. -/
structure CheckIsComplete (value : Value) (required : ℕ) : Prop where
  free : required = 0 → (freeBytes value).isSome = true
  queried : NoBitlockerError value
  stated : ∀ volume ∈ arrayish (value.get "bitlocker"),
    ∃ status ∈ protectionStatus volume, ∀ text, status = .string text → IsOffText text

/-- A character below the small letters is the lower case of itself alone. -/
theorem toLower_eq_iff {d : Char} (hself : d.toLower = d) (hsmall : d.toNat < 97) (c : Char) :
    c.toLower = d ↔ c = d := by
  constructor
  · intro h
    unfold Char.toLower at h
    split at h
    next hupper =>
      have hval := congrArg (fun c => c.val.toNat) h
      have hlow := UInt32.le_iff_toNat_le.mp hupper.1
      have hhigh := UInt32.le_iff_toNat_le.mp hupper.2
      simp at hval hlow hhigh
      omega
    next => exact h
  · rintro rfl
    exact hself

theorem sameLetter_iff (c d : Char) :
    (if c = '_' then '-' else c).toLower = (if d = '_' then '-' else d).toLower ↔
      SameLetter c d := by
  unfold SameLetter
  have hdash : '-'.toLower = '-' := by decide
  have hunder : '_'.toLower = '_' := by decide
  have hiff := toLower_eq_iff hdash (by decide)
  have hiff' := toLower_eq_iff hunder (by decide)
  by_cases hc : c = '_'
  · by_cases hd : d = '_'
    · simp [hc, hd]
    · rw [if_pos hc, if_neg hd, hc, hdash, hunder, eq_comm, hiff, @eq_comm _ '_', hiff']
      simp [hd]
  · by_cases hd : d = '_'
    · simp [hc, hd, hdash, hunder, hiff, hiff']
    · simp only [hc, hd, if_false, or_false]
      exact ⟨.inl, fun h => h.elim id fun h => by rw [h.1, h.2]⟩

theorem localesMatchExactly_iff (left right : String) :
    localesMatchExactly left right = true ↔ SameLanguage left right := by
  unfold localesMatchExactly normalizeLocaleForCompare SameLanguage
  rw [decide_eq_true_iff, List.map_map, List.map_map, ← List.forall₂_eq_eq_eq,
    List.forall₂_map_left_iff, List.forall₂_map_right_iff]
  exact ⟨List.Forall₂.imp fun c d => (sameLetter_iff c d).mp,
    List.Forall₂.imp fun c d => (sameLetter_iff c d).mpr⟩

theorem reportsOff_iff {volume : Value} (h : bitlockerProtectedOrUnknown volume = false) :
    ReportsOff volume ↔
      ∃ status ∈ protectionStatus volume, ∀ text, status = .string text → IsOffText text := by
  unfold bitlockerProtectedOrUnknown at h
  unfold ReportsOff
  split at h
  next number hstatus =>
    cases hnumber : number.asI64 with
    | none => simp [hnumber] at h
    | some n =>
      have hzero : n = 0 := by simpa [hnumber] using h
      simp [hstatus, hnumber, hzero]
  next text hstatus => simp [hstatus]
  next => cases h
  next hstatus => simp [hstatus]

theorem checkPasses_iff {value : Value} {required : ℕ} {media : FeatureUpgradeIsoMedia}
    {product version : String}
    (h : (collectFinalGateEvidence value required media product version).passed = true) :
    CheckPasses value required media product version ↔ CheckIsComplete value required := by
  obtain ⟨hfree, hoff, hlanguage⟩ := (passed_iff _ _ _ _ _).mp h
  constructor
  · intro hpasses
    refine ⟨fun _ => ?_, hpasses.queried, fun volume hvolume =>
      (reportsOff_iff (hoff volume hvolume)).mp (hpasses.off volume hvolume)⟩
    obtain ⟨bytes, hbytes, -⟩ := hpasses.free
    rw [Option.mem_def.mp hbytes]
    rfl
  · intro hcomplete
    refine ⟨?_, hcomplete.queried, fun volume hvolume =>
      (reportsOff_iff (hoff volume hvolume)).mpr (hcomplete.stated volume hvolume), ?_⟩
    · cases hbytes : freeBytes value with
      | some bytes =>
        rw [hbytes] at hfree
        exact ⟨bytes, rfl, hfree⟩
      | none =>
        rw [hbytes] at hfree
        have hsome := hcomplete.free (Nat.le_zero.mp hfree)
        rw [hbytes] at hsome
        cases hsome
    · intro hrequires mediaLanguage hmedia
      obtain ⟨device, hdevice, hmatch⟩ := hlanguage hrequires mediaLanguage hmedia
      exact ⟨device, hdevice, (localesMatchExactly_iff _ _).mp hmatch⟩

end Talos.Upgrade
