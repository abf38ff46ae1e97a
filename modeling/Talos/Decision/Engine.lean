import Mathlib.Data.List.Lex
import Mathlib.Data.List.Sort
import Talos.Decision.Override

/-!
# The patch decision engine

`evaluatePatchActionPlan` as the source computes it. The five places where the
source returns build the same record around the list `actions`, so the list is
computed by `plannedActions` and the record is built once. A date that cannot
be printed makes the source throw, which is `none`. The action built at a
position of the list draws the identifier of that position.
-/

namespace Talos.Decision

open JavaScript

inductive PatchPlanActionType where
  | applyNativeControl
  | scan
  | download
  | install
  | reboot
  | defer
  | blocked
  | reportOnly
deriving DecidableEq

def PatchPlanActionType.text : PatchPlanActionType → String
  | applyNativeControl => "applyNativeControl"
  | scan => "scan"
  | download => "download"
  | install => "install"
  | reboot => "reboot"
  | defer => "defer"
  | blocked => "blocked"
  | reportOnly => "reportOnly"

structure PatchActionPlanItem where
  operationId : String
  action : PatchPlanActionType
  updateKeys : List String
  category : Option PatchCategory
  window : Option Phase
  notBefore : Option String
  deadlineAt : Option String
  forced : Bool
  reason : String
  metadata : Record

structure PatchActionPlan where
  generatedAt : String
  organizationId : String
  agentId : String
  policyId : Option String
  managedMode : Bool
  nativeWindowsUpdateControl : Bool
  nextCheckInAt : String
  actions : List PatchActionPlanItem

structure ActionOptions where
  operationId : Option String := none
  updateKeys : List String := []
  category : Option PatchCategory := none
  window : Option Phase := none
  notBefore : Option String := none
  deadlineAt : Option String := none
  forced : Bool := false
  metadata : Record := []

def action (uuid : String) (type : PatchPlanActionType) (reason : String)
    (options : ActionOptions) : PatchActionPlanItem where
  operationId := options.operationId.getD uuid
  action := type
  updateKeys := options.updateKeys
  category := options.category
  window := options.window
  notBefore := options.notBefore
  deadlineAt := options.deadlineAt
  forced := options.forced
  reason := reason
  metadata := options.metadata

def texts (values : List String) : Json := .arr (values.map .str)

/-! ## De-duplication -/

/-- The code units of a text in UTF-16, by which `sort` orders. -/
def codeUnits (text : String) : List ℕ :=
  text.toList.flatMap fun c =>
    if c.toNat < 0x10000 then [c.toNat]
    else [0xD800 + (c.toNat - 0x10000) / 0x400, 0xDC00 + (c.toNat - 0x10000) % 0x400]

/-- The text by which two actions count as the same. -/
def dedupeText (item : PatchActionPlanItem) : String :=
  item.action.text ++ "|"
    ++ ",".intercalate (item.updateKeys.insertionSort fun a b => codeUnits a ≤ codeUnits b)
    ++ "|" ++ item.reason

/-- The actions whose text is not among those seen before. -/
def uniqueFrom (seen : List String) : List PatchActionPlanItem → List PatchActionPlanItem
  | [] => []
  | item :: items =>
    if dedupeText item ∈ seen then uniqueFrom seen items
    else item :: uniqueFrom (dedupeText item :: seen) items

def uniqueActions (actions : List PatchActionPlanItem) : List PatchActionPlanItem :=
  uniqueFrom [] actions

/-! ## One macOS version for each run -/

structure OsUpdateCandidate where
  update : PatchDecisionUpdate
  category : PatchCategory
  version : Option (List Number)
  major : Option Number

structure BlockedCandidate where
  update : PatchDecisionUpdate
  category : PatchCategory
  reason : String
  metadata : Record

structure InstallSelection where
  installKeys : List String
  blocked : List BlockedCandidate

/-- A map from update keys to updates, in which a later update with the same
key takes the place of the earlier one. -/
def setByKey (selected : List PatchDecisionUpdate) (update : PatchDecisionUpdate) :
    List PatchDecisionUpdate :=
  if selected.any (·.updateKey = update.updateKey) then
    selected.map fun other => if other.updateKey = update.updateKey then update else other
  else selected ++ [update]

def osUpdateCandidate (js : Runtime) (update : PatchDecisionUpdate) : OsUpdateCandidate :=
  let category := classifyPatchCategory js update
  let version := if category = .feature then macosOsVersionFromTitle js update.title else none
  { update, category, version, major := version.bind List.head? }

def candidateOrder (js : Runtime) (a b : OsUpdateCandidate) : Bool :=
  let versions := compareVersionPartsDesc a.version b.version
  if versions.truthy then !(Number.ofInt 0).lt versions
  else js.localeCompare a.update.title b.update.title ≤ 0

def osUpdateCandidates (js : Runtime) (updates : List PatchDecisionUpdate)
    (installKeys : List String) : List OsUpdateCandidate :=
  (((updates.filter (·.updateKey ∈ installKeys)).foldl setByKey []).map
    (osUpdateCandidate js)).filter fun candidate => candidate.major.isSome

def blockedCandidate (candidates : List OsUpdateCandidate)
    (selected candidate : OsUpdateCandidate) : BlockedCandidate where
  update := candidate.update
  category := candidate.category
  reason :=
    "Skipped to avoid installing multiple macOS OS-version updates in one run; "
      ++ selected.update.title ++ " was selected."
  metadata :=
    [("selectedUpdateKey", .str selected.update.updateKey),
      ("selectedTitle", .str selected.update.title),
      ("candidateMajor", candidate.major.elim .null .num),
      ("competingUpdateKeys", texts (candidates.map (·.update.updateKey)))]

def constrainMacosOsVersionInstallSelection (js : Runtime) (device : PatchDecisionDevice)
    (updates : List PatchDecisionUpdate) (installKeys : List String) : InstallSelection :=
  if !isMacosDeviceOs js device.os then ⟨installKeys, []⟩
  else
    let candidates := osUpdateCandidates js updates installKeys
    if candidates.length ≤ 1 then ⟨installKeys, []⟩
    else
      match candidates.insertionSort fun a b => candidateOrder js a b with
      | [] => ⟨installKeys, []⟩
      | selected :: _ =>
        let blocked :=
          (candidates.filter fun candidate =>
            candidate.update.updateKey ≠ selected.update.updateKey).map
              (blockedCandidate candidates selected)
        ⟨installKeys.filter fun key => key ∉ blocked.map (·.update.updateKey), blocked⟩

section

variable (js : Runtime) (env : Environment) (input : EvaluatePatchPlanInput)

/-! ## What the whole plan reads -/

def nowMs : Date.Time :=
  ((input.now.elim (some env.dateNow) js.toDate)).getD env.dateNow

def policyConfig : PatchPolicyConfig := coercePatchPolicyConfig input.policy

def activeOverrides : List PatchDecisionOverride :=
  matchingOverrides js input (nowMs js env input) none

def activeOf (type : PatchOverrideAction) : List PatchDecisionOverride :=
  (activeOverrides js env input).filter (·.action = type)

def maintenanceUntilMs : Option Date.Time := parseDateMs js input.device.patchMaintenanceModeUntil

def inMaintenance : Bool :=
  (maintenanceUntilMs js input).any (fun time => (nowMs js env input).value < time.value)
    || (activeOverrides js env input).any (·.action = .maintenanceMode)

def managedMode : Bool := input.device.patchManaged && (policyConfig input).managedMode

def supportsNativeWindowsUpdateControl (os : String) : Bool :=
  (Pattern.seq .boundary (.seq (.literalIgnoreCase "windows") .boundary)).test os

def nativeWindowsUpdateControl : Bool :=
  supportsNativeWindowsUpdateControl input.device.os && managedMode input
    && input.device.nativeWindowsUpdateControl && (policyConfig input).nativeWindowsUpdateControl

def hasManualInstallOnly : Bool :=
  (activeOf js env input .forceReboot).isEmpty
    && (activeOverrides js env input).any fun override =>
      override.action = .forceInstall || override.action = .forceDownload

def windowOpen (phase : Phase) : Bool :=
  isWithinPatchWindow js ((policyConfig input).windows phase) (.date (some (nowMs js env input)))

def checkInMs : Number := (policyConfig input).checkInIntervalMinutes.mul (.ofInt 60000)

/-- `new Date(number).toISOString()`. -/
def isoDate (time : Number) : Option String := (Date.ofNumber time).map Date.Time.toISOString

/-- `time ? new Date(time).toISOString() : null`. -/
def isoDateOrNull : Option Number → Option (Option String)
  | none => some none
  | some time => if time.truthy then (isoDate time).map some else some none

/-- The same for a time that was parsed from a date. -/
def isoTimeOrNull (time : Option Date.Time) : Option String :=
  (time.filter fun time => time.value ≠ 0).map Date.Time.toISOString

variable (actions : List PatchActionPlanItem)

def push (type : PatchPlanActionType) (reason : String) (options : ActionOptions) :
    List PatchActionPlanItem :=
  actions ++ [action (env.randomUUID actions.length) type reason options]

/-! ## One update -/

variable (update : PatchDecisionUpdate)

def updateOverrides : List PatchDecisionOverride :=
  matchingOverrides js input (nowMs js env input) (some (update, classifyPatchCategory js update))

def overrideOf (type : PatchOverrideAction) : Option PatchDecisionOverride :=
  (updateOverrides js env input update).find? (·.action = type)

def forceOf : Option PatchDecisionOverride :=
  (overrideOf js env input update .forceInstall).or (overrideOf js env input update .forceDownload)

/-- `force || emergency`. -/
def forcedByOverride : Bool :=
  (forceOf js env input update).isSome || (overrideOf js env input update .emergencyApprove).isSome

def ruleOf : PatchCategoryRule :=
  (policyConfig input).categories (classifyPatchCategory js update)

def releaseMs : Date.Time :=
  ((parseDateMs js update.releaseDate).or (parseDateMs js update.firstDetectedAt)).getD
    (nowMs js env input)

def releasePlus (days : Number) : Number :=
  (releaseMs js env input update).getTime.add (days.mul (.ofInt Date.msPerDay))

def eligibleMs : Number :=
  releasePlus js env input update (ruleOf js input update).installAfterDays

def installDeadlineMs : Option Number :=
  (ruleOf js input update).forceInstallByDays.map (releasePlus js env input update)

def forceDeadlineReached : Bool :=
  (installDeadlineMs js env input update).any fun deadline =>
    deadline.le (nowMs js env input).getTime

def lifecycleOf : String := update.lifecycleState.getD "detected"

def isSuperseded : Bool :=
  lifecycleOf update = "superseded" || update.superseded.getD false

/-- `Boolean(value)` of a date field. -/
def datePresent : Option Date.Input → Bool
  | none => false
  | some (.text text) => text ≠ ""
  | some (.date _) => true

def downloadedTransactionMember : Bool :=
  datePresent update.downloadedAt && isSuperseded update

/-- The deferral of the update by an override, unless its time has passed. -/
def activeDefer : Option (PatchDecisionOverride × Option Date.Time) :=
  ((overrideOf js env input update .defer).map fun defer =>
    (defer, parseDateMs js defer.deferUntil)).filter fun defer =>
      defer.2.all fun time => (nowMs js env input).value < time.value

/-- `override.reason || text`. -/
def reasonOr (override : PatchDecisionOverride) (text : String) : String :=
  (override.reason.filter (· ≠ "")).getD text

/-- What one turn of the loop does. -/
inductive UpdateStep where
  | skip
  | push (type : PatchPlanActionType) (reason : String) (options : ActionOptions)
  | install

/-- The part of the turn after the overrides that block or defer the update. -/
def decideByPolicy : Option UpdateStep :=
  let category := classifyPatchCategory js update
  let rule := ruleOf js input update
  let forced := forcedByOverride js env input update
  if !forced && rule.approval = .blocked then
    some (.push .blocked (category.text ++ " updates are blocked by policy.")
      { updateKeys := [update.updateKey], category := some category })
  else if !forced && (nowMs js env input).getTime.lt (eligibleMs js env input update)
      && !forceDeadlineReached js env input update then do
    let eligible ← isoDate (eligibleMs js env input update)
    let deadlineAt ← isoDateOrNull (installDeadlineMs js env input update)
    pure (.push .defer ("Update is deferred until " ++ eligible ++ ".")
      { updateKeys := [update.updateKey]
        category := some category
        notBefore := some eligible
        deadlineAt := deadlineAt
        metadata :=
          [("releaseDate", .str (releaseMs js env input update).toISOString),
            ("installAfterDays", .num rule.installAfterDays)] })
  else if !forced && rule.approval = .manual
      && (overrideOf js env input update .approve).isNone then
    some (.push .blocked (category.text ++ " updates require manual approval.")
      { updateKeys := [update.updateKey], category := some category })
  else if hasManualInstallOnly js env input && (forceOf js env input update).isNone then
    some .skip
  else if forced || forceDeadlineReached js env input update ||
      windowOpen js env input .install then
    some .install
  else do
    let deadlineAt ← isoDateOrNull (installDeadlineMs js env input update)
    pure (.push .defer "Update is approved but outside the install window."
      { updateKeys := [update.updateKey]
        category := some category
        window := some .install
        deadlineAt := deadlineAt })

def evaluateUpdate : Option UpdateStep :=
  let category := classifyPatchCategory js update
  if lifecycleOf update = "installed"
      || (!downloadedTransactionMember update && isSuperseded update) then some .skip
  else if lifecycleOf update = "failed" && !forcedByOverride js env input update then some .skip
  else
    match overrideOf js env input update .block, activeDefer js env input update with
    | some block, _ =>
      some (.push .blocked (reasonOr block "Update is blocked by override.")
        { updateKeys := [update.updateKey]
          category := some category
          metadata := [("overrideId", .str block.id)] })
    | none, some (defer, deferMs) =>
      some (.push .defer (reasonOr defer "Update is deferred by override.")
        { updateKeys := [update.updateKey]
          category := some category
          notBefore := isoTimeOrNull deferMs
          metadata := [("overrideId", .str defer.id)] })
    | none, none => decideByPolicy js env input update

/-- The override whose identifier the turn adds to the set of manual
installs. -/
def installOnlyOverride : Option String :=
  if lifecycleOf update = "installed"
      || (!downloadedTransactionMember update && isSuperseded update)
      || (overrideOf js env input update .block).isSome
      || (activeDefer js env input update).isSome
      || (overrideOf js env input update .emergencyApprove).isSome then none
  else (forceOf js env input update).map (·.id)

/-! ## The loop over the updates -/

structure LoopState where
  actions : List PatchActionPlanItem
  installKeys : List String
  installOnlyOverrideIds : List String

variable (state : LoopState)

def LoopState.apply (update : PatchDecisionUpdate) (step : UpdateStep) : LoopState where
  actions :=
    match step with
    | .push type reason options => push env state.actions type reason options
    | _ => state.actions
  installKeys :=
    match step with
    | .install => state.installKeys ++ [update.updateKey]
    | _ => state.installKeys
  installOnlyOverrideIds :=
    state.installOnlyOverrideIds ++ (installOnlyOverride js env input update).toList

def evaluateUpdates : List PatchDecisionUpdate → LoopState → Option LoopState
  | [], state => some state
  | update :: updates, state =>
    (evaluateUpdate js env input update).bind fun step =>
      evaluateUpdates updates (state.apply js env input update step)

/-! ## The plan -/

def nativeControlActions : List PatchActionPlanItem :=
  if supportsNativeWindowsUpdateControl input.device.os then
    push env [] .applyNativeControl
      (if nativeWindowsUpdateControl input then "Talos patch control is enabled by policy."
        else "Native Windows Update control is restored or unmanaged by policy.")
      { metadata :=
          [("enabled", .bool (nativeWindowsUpdateControl input)), ("overrideIds", texts [])] }
  else []

def scanDue : Bool :=
  (parseDateMs js input.device.lastScanAt).all fun lastScan =>
    (checkInMs input).le ((nowMs js env input).getTime.sub lastScan.getTime)

def scanActions : List PatchActionPlanItem :=
  let scanOverrides := activeOf js env input .forceScan
  let scanDue := scanDue js env input
  let scanWindowOpen := windowOpen js env input .scan
  if !hasManualInstallOnly js env input && (!scanOverrides.isEmpty || (scanDue && scanWindowOpen))
  then
    push env actions .scan
      (if scanOverrides.isEmpty then "Scan window is open and scan is due."
        else "Manual scan override requested.")
      { operationId := overrideOperationId scanOverrides
        window := some .scan
        forced := !scanOverrides.isEmpty
        metadata := [("overrideIds", texts (overrideIds scanOverrides))] }
  else if !hasManualInstallOnly js env input && scanDue && !scanWindowOpen then
    push env actions .defer "Scan is due but outside the scan window." { window := some .scan }
  else actions

def installOverrides : List PatchDecisionOverride :=
  (activeOverrides js env input).filter fun override =>
    override.action = .forceInstall || override.action = .forceDownload
      || override.action = .emergencyApprove || override.action = .approve

def pushBlocked (blocked : BlockedCandidate) : List PatchActionPlanItem :=
  push env actions .blocked blocked.reason
    { updateKeys := [blocked.update.updateKey]
      category := some blocked.category
      metadata := blocked.metadata }

def macosInstallSelection : InstallSelection :=
  constrainMacosOsVersionInstallSelection js input.device input.updates state.installKeys

def installOptions : ActionOptions where
  operationId := overrideOperationId (installOverrides js env input)
  updateKeys := (macosInstallSelection js input state).installKeys.eraseDups
  window := some .install
  forced := !(installOverrides js env input).isEmpty
  metadata :=
    [("overrideIds", texts (overrideIds (installOverrides js env input))),
      ("rebootBehavior",
        .str (if (installOverrides js env input).any (·.action = .forceDownload) then "suppress"
          else "allow")),
      ("manualInstallOnly", .bool !state.installOnlyOverrideIds.isEmpty)]

def installActions : List PatchActionPlanItem :=
  let selection := macosInstallSelection js input state
  let actions := selection.blocked.foldl (pushBlocked env) state.actions
  if selection.installKeys.isEmpty then actions
  else
    push env actions .install "Install is authorized by policy or override."
      (installOptions js env input state)

def rebootActions : List PatchActionPlanItem :=
  let deferReboot := (activeOf js env input .deferReboot).head?
  let forceReboot := (activeOf js env input .forceReboot).head?
  let deferMs := parseDateMs js (deferReboot.bind (·.deferUntil))
  let serverManualOnly :=
    input.device.deviceType = .server && (policyConfig input).reboot.serverBehavior = .manualOnly
  if input.device.rebootRequired = some true && !hasManualInstallOnly js env input then
    match deferReboot.filter fun _ =>
        deferMs.all fun time => (nowMs js env input).value < time.value with
    | some override =>
      push env actions .defer (reasonOr override "Reboot is deferred by override.")
        { window := some .reboot
          notBefore := isoTimeOrNull deferMs
          metadata := [("overrideId", .str override.id)] }
    | none =>
      if forceReboot.isSome
          || (!serverManualOnly && (policyConfig input).reboot.allowAutomaticReboot
            && windowOpen js env input .reboot) then
        push env actions .reboot
          (if forceReboot.isSome then "Manual reboot override requested."
            else "Reboot window is open.")
          { operationId := forceReboot.bind (·.operationId)
            window := some .reboot
            forced := forceReboot.isSome
            metadata := [("overrideIds", texts (overrideIds forceReboot.toList))] }
      else
        push env actions .defer
          (if serverManualOnly then "Server reboot policy requires manual reboot."
            else "Reboot is pending but outside the reboot window.")
          { window := some .reboot }
  else actions

def reportIfIdle : List PatchActionPlanItem :=
  if actions.length = (if supportsNativeWindowsUpdateControl input.device.os then 1 else 0) then
    push env actions .reportOnly "No patch action is currently required." {}
  else actions

/-- Whether the evaluation gets as far as the loop over the updates. -/
def considersUpdates : Bool :=
  managedMode input && (activeOf js env input .forceReboot).isEmpty && !inMaintenance js env input
    && (hasManualInstallOnly js env input || (activeOf js env input .forceScan).isEmpty)

/-- The plan of a device whose updates are considered. -/
def updateActions : Option (List PatchActionPlanItem) :=
  let scanned := scanActions js env input (nativeControlActions env input)
  (evaluateUpdates js env input input.updates ⟨scanned, [], []⟩).map fun state =>
    reportIfIdle env input (rebootActions js env input (installActions js env input state))

/-- The list `actions` when the source returns, before its de-duplication. -/
def plannedActions : Option (List PatchActionPlanItem) :=
  let actions := nativeControlActions env input
  let forceRebootOverrides := activeOf js env input .forceReboot
  if !managedMode input then
    some (push env actions .reportOnly "Device is unmanaged by policy."
      { metadata := [("managedMode", .bool (managedMode input)), ("overrideIds", texts [])] })
  else if !forceRebootOverrides.isEmpty then
    some (push env actions .reboot "Manual reboot override requested."
      { operationId := overrideOperationId forceRebootOverrides
        window := some .reboot
        forced := true
        metadata := [("overrideIds", texts (overrideIds forceRebootOverrides))] })
  else if inMaintenance js env input then
    some (push env actions .reportOnly "Device is in patch maintenance mode."
      { notBefore := isoTimeOrNull (maintenanceUntilMs js input)
        metadata :=
          [("overrideIds", texts (overrideIds (activeOf js env input .maintenanceMode)))] })
  else if !hasManualInstallOnly js env input && !(activeOf js env input .forceScan).isEmpty then
    some (scanActions js env input actions)
  else updateActions js env input

def evaluatePatchActionPlan : Option PatchActionPlan := do
  let actions ← plannedActions js env input
  let nextCheckInAt ← isoDate ((nowMs js env input).getTime.add (checkInMs input))
  pure
    { generatedAt := (nowMs js env input).toISOString
      organizationId := input.device.organizationId
      agentId := input.device.agentId
      policyId := input.policy.map (·.id)
      managedMode := managedMode input
      nativeWindowsUpdateControl := nativeWindowsUpdateControl input
      nextCheckInAt := nextCheckInAt
      actions := uniqueActions actions }

end

end Talos.Decision
