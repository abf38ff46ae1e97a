import Talos.Decision.Category

/-!
# Windows and overrides of the decision engine

The input of `evaluatePatchActionPlan`, the phase windows, and which overrides
are active: `matchingOverrides` without an update gives the overrides that name
no update at all, with an update those that name it or name nothing.
-/

namespace Talos.Decision

open JavaScript

inductive PatchDeviceType where
  | server
  | workstation
  | laptop
  | unknown
deriving DecidableEq

inductive PatchRing where
  | pilot
  | early
  | broad
  | criticalServers
  | excluded

def PatchRing.text : PatchRing → String
  | pilot => "pilot"
  | early => "early"
  | broad => "broad"
  | criticalServers => "critical_servers"
  | excluded => "excluded"

inductive PatchOverrideAction where
  | approve
  | block
  | defer
  | forceInstall
  | forceScan
  | forceDownload
  | forceReboot
  | deferReboot
  | maintenanceMode
  | emergencyApprove
  | cancel
deriving DecidableEq

inductive ScopeType where
  | global
  | organization
  | customer
  | site
  | group
  | tag
  | ring
  | device
deriving DecidableEq

structure PatchDecisionDevice where
  organizationId : String
  agentId : String
  os : String
  customerId : Option String
  siteId : Option String
  deviceType : PatchDeviceType
  patchRing : PatchRing
  patchManaged : Bool
  nativeWindowsUpdateControl : Bool
  patchMaintenanceModeUntil : Option Date.Input
  patchTags : List String
  rebootRequired : Option Bool
  lastScanAt : Option Date.Input

structure PatchDecisionOverride where
  id : String
  scopeType : ScopeType
  scopeKey : String
  action : PatchOverrideAction
  operationId : Option String
  updateKey : Option String
  kbArticle : Option String
  category : Option String
  reason : Option String
  deferUntil : Option Date.Input
  expiresAt : Option Date.Input
  enabled : Option Bool
deriving DecidableEq

/-- A list that the caller leaves out is empty. -/
structure EvaluatePatchPlanInput where
  now : Option Date.Input
  device : PatchDecisionDevice
  policy : Option Policy
  updates : List PatchDecisionUpdate
  overrides : List PatchDecisionOverride
  groupIds : List String

/-- What one evaluation takes from outside: the clock, and the identifier that
`randomUUID` gives to the action built at each position of the plan. -/
structure Environment where
  dateNow : Date.Time
  randomUUID : ℕ → String

section

variable (js : Runtime)

/-! ## Dates and windows -/

def parseDateMs : Option Date.Input → Option Date.Time
  | none => none
  | some (.text text) => if text = "" then none else js.dateParse text
  | some (.date time) => time

/-- `/^([01]\d|2[0-3]):([0-5]\d)$/` and the minutes it reads. -/
def minutesFromTime (value : Option String) : Option ℕ :=
  match value.map String.toList with
  | some [h, i, ':', m, n] =>
    let digit (c : Char) : ℕ := c.toNat - '0'.toNat
    if (((h = '0' || h = '1') && Number.isDigit i) || (h = '2' && '0' ≤ i && i ≤ '3'))
        && '0' ≤ m && m ≤ '5' && Number.isDigit n then
      some ((digit h * 10 + digit i) * 60 + (digit m * 10 + digit n))
    else none
  | _ => none

/-- The minutes of the day in the time zone, or in UTC when the zone is not
known. -/
def localMinutes (now : Date.Time) (timezone : String) : Number :=
  match js.formatToParts (if timezone = "" then "UTC" else timezone) now with
  | some parts =>
    let part (type : String) : Number :=
      .ofText (((parts.find? fun part => part.1 = type).map Prod.snd).getD "0")
    ((part "hour").mul (.ofInt 60)).add (part "minute")
  | none => .ofInt (now.value % Date.msPerDay / 60000)

def isWithinPatchWindow (window : PatchPhaseWindow) (now : Date.Input) : Bool :=
  if !window.enabled then false
  else
    match minutesFromTime window.start, minutesFromTime window.stop with
    | some start, some stop =>
      match js.toDate now with
      | none => false
      | some date =>
        let current := localMinutes js date window.timezone
        let afterStart := (Number.ofInt start).le current
        let beforeStop := current.lt (.ofInt stop)
        if start = stop then true
        else if start < stop then afterStart && beforeStop
        else afterStart || beforeStop
    | _, _ => true

/-! ## Overrides -/

variable (override : PatchDecisionOverride)

def isExpired (nowMs : Date.Time) : Bool :=
  if override.enabled = some false then true
  else (parseDateMs js override.expiresAt).any fun expires => expires.value ≤ nowMs.value

def overrideScopeMatches (device : PatchDecisionDevice) (groupIds : List String) : Bool :=
  match override.scopeType with
  | .global => true
  | .organization => override.scopeKey = device.organizationId
  | .customer => device.customerId.any fun id => id ≠ "" && override.scopeKey = id
  | .site => device.siteId.any fun id => id ≠ "" && override.scopeKey = id
  | .ring => override.scopeKey = device.patchRing.text
  | .device => override.scopeKey = device.agentId
  | .tag => override.scopeKey ∈ device.patchTags
  | .group => override.scopeKey ∈ groupIds

/-- An override without an update key, an article or a category. -/
def untargeted : Bool :=
  !truthy override.updateKey && !truthy override.kbArticle && !truthy override.category

def overrideUpdateMatches : Option (PatchDecisionUpdate × PatchCategory) → Bool
  | none => untargeted override
  | some (update, category) =>
    !(truthy override.updateKey && override.updateKey ≠ some update.updateKey)
      && !(truthy override.kbArticle
        && normalizePatchText js (override.kbArticle.getD "")
          ≠ normalizePatchText js (update.kbArticle.getD ""))
      && !(truthy override.category && override.category ≠ some category.text)

def matchingOverrides (input : EvaluatePatchPlanInput) (nowMs : Date.Time)
    (target : Option (PatchDecisionUpdate × PatchCategory)) : List PatchDecisionOverride :=
  ((input.overrides.filter fun override => !isExpired js override nowMs).filter fun override =>
      overrideScopeMatches override input.device input.groupIds).filter fun override =>
    overrideUpdateMatches js override target

theorem overrideUpdateMatches_of_untargeted {override : PatchDecisionOverride}
    (h : untargeted override = true) (target : Option (PatchDecisionUpdate × PatchCategory)) :
    overrideUpdateMatches js override target = true := by
  cases target with
  | none => exact h
  | some target =>
    simp only [untargeted, Bool.and_eq_true, Bool.not_eq_true'] at h
    simp [overrideUpdateMatches, h.1.1, h.1.2, h.2]

theorem mem_matchingOverrides_of_none {input : EvaluatePatchPlanInput} {nowMs : Date.Time}
    {override : PatchDecisionOverride} (h : override ∈ matchingOverrides js input nowMs none)
    (target : Option (PatchDecisionUpdate × PatchCategory)) :
    override ∈ matchingOverrides js input nowMs target := by
  unfold matchingOverrides at h ⊢
  rw [List.mem_filter] at h ⊢
  exact ⟨h.1, overrideUpdateMatches_of_untargeted js h.2 target⟩

end

def overrideIds (overrides : List PatchDecisionOverride) : List String :=
  overrides.map (·.id)

/-- The operation of the first override that has one with more than white space
in it. -/
def overrideOperationId (overrides : List PatchDecisionOverride) : Option String :=
  overrides.findSome? fun override => override.operationId.filter fun id => trim id ≠ ""

theorem overrideOperationId_filter_eq_some_iff {overrides : List PatchDecisionOverride}
    {p : PatchDecisionOverride → Bool} {operationId : String} :
    overrideOperationId (overrides.filter p) = some operationId ↔
      ∃ earlier first later, overrides = earlier ++ first :: later ∧ p first = true ∧
        first.operationId = some operationId ∧ trim operationId ≠ "" ∧
        ∀ other ∈ earlier, p other = true → ∀ id, other.operationId = some id → trim id = "" := by
  have hskip : overrideOperationId (overrides.filter p) = overrides.findSome? fun override =>
      if p override then override.operationId.filter fun id => trim id ≠ "" else none := by
    induction overrides with
    | nil => rfl
    | cons override overrides ih =>
      unfold overrideOperationId at ih ⊢
      cases hp : p override
      · simpa only [List.filter_cons, List.findSome?_cons, hp, Bool.false_eq_true,
          if_false] using ih
      · simp only [List.filter_cons, List.findSome?_cons, hp, if_true, ih]
  rw [hskip, List.findSome?_eq_some_iff]
  refine exists₃_congr fun earlier first later => and_congr_right fun _ => ?_
  simp [Option.filter_eq_some_iff, Option.filter_eq_none_iff, and_assoc]

end Talos.Decision
