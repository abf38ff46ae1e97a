import Talos.Decision.Authorization
import Talos.Patch.ActionResult

/-!
# Forced updates and their requests

A request to install an update is an override with an operation of its own, and
the completed operation is what disables the override again. The install action
takes its operation and its list of overrides from those that name no update,
so the request of a single update, article or category is neither the operation
of the action nor on its list.
-/

namespace Talos.Decision

open JavaScript
open Patch (PatchDatabase DecisionLogRow latestDecision readOverrideIdsFromDecisionDetails
  disableCompletedOneShotOverrides oneShotActions)
open Remediation (Device)

/-- The texts of `metadata.overrideIds`. -/
def listedOverrideIds (item : PatchActionPlanItem) : List String :=
  (asArray (item.metadata.get? "overrideIds")).filterMap fun value =>
    match value with
    | .str text => some text
    | _ => none

/-- `details_jsonb` of the log entry that `persistPatchDecisionLog` writes for an
action of the plan. -/
def decisionDetails (plan : PatchActionPlan) (item : PatchActionPlanItem) : Json :=
  .obj
    [("category", item.category.elim .null fun category => .str category.text),
      ("window", item.window.elim .null fun phase => .str phase.text),
      ("notBefore", item.notBefore.elim .null .str),
      ("deadlineAt", item.deadlineAt.elim .null .str),
      ("forced", .bool item.forced),
      ("metadata", .obj item.metadata),
      ("managedMode", .bool plan.managedMode),
      ("nativeWindowsUpdateControl", .bool plan.nativeWindowsUpdateControl),
      ("generatedAt", .str plan.generatedAt)]

section

variable (js : Runtime) (env : Environment) (input : EvaluatePatchPlanInput)

/-- An override that is enabled, not expired, and whose scope takes in the device. -/
structure Active (override : PatchDecisionOverride) : Prop where
  mem : override ∈ input.overrides
  current : isExpired js override (nowMs js env input) = false
  scope : overrideScopeMatches override input.device input.groupIds = true

/-- An active request to install the update, with its operation. -/
structure ForcedRequest (update : PatchDecisionUpdate) (request : PatchDecisionOverride)
    (operationId : String) : Prop extends Active js env input request where
  update : overrideUpdateMatches js request (some (update, classifyPatchCategory js update)) = true
  forces : request.action = .forceInstall ∨ request.action = .forceDownload
  operation : request.operationId = some operationId
  named : trim operationId ≠ ""

/-- An active override that lets install, and names no update key, article or category. -/
structure DeviceWide (override : PatchDecisionOverride) : Prop
    extends Active js env input override where
  untargeted : untargeted override = true
  installs : override.action ∈
    [PatchOverrideAction.forceInstall, .forceDownload, .emergencyApprove, .approve]

/-- The first override of the whole device that has an operation has this one. -/
def FirstOperation (operationId : String) : Prop :=
  ∃ earlier first later, input.overrides = earlier ++ first :: later ∧
    DeviceWide js env input first ∧ first.operationId = some operationId ∧
    trim operationId ≠ "" ∧ ∀ other ∈ earlier, DeviceWide js env input other →
      ∀ id, other.operationId = some id → trim id = ""

/-- A request for the whole device has the operation that comes first. -/
def RequestNamed : Prop :=
  ∃ request operationId, DeviceWide js env input request ∧
    (request.action = .forceInstall ∨ request.action = .forceDownload) ∧
    request.operationId = some operationId ∧ FirstOperation js env input operationId

end

section

variable {js : Runtime} {env : Environment} {input : EvaluatePatchPlanInput}

theorem listedOverrideIds_installItem (state : LoopState) (uuid : String) :
    listedOverrideIds (installItem js env input state uuid)
      = overrideIds (installOverrides js env input) := by
  simp [listedOverrideIds, installItem, action, installOptions, Record.get?, asArray, texts,
    List.filterMap_map]

variable {item : PatchActionPlanItem}

theorem exists_installItem_of_plan {plan : PatchActionPlan}
    (hplan : evaluatePatchActionPlan js env input = some plan) (hmem : item ∈ plan.actions)
    (hinstall : item.action = .install) :
    ∃ state index, item = installItem js env input state (env.randomUUID index) := by
  obtain ⟨actions, hactions, hunique⟩ := evaluatePatchActionPlan_eq_some hplan
  rw [hunique] at hmem
  have hitem := (uniqueFrom_sublist [] actions).subset hmem
  rcases plannedActions_cases hactions with ⟨-, hupdates⟩ | ⟨-, hnone⟩
  · exact exists_installItem hupdates hitem hinstall
  · obtain ⟨tail, rfl, htail⟩ := hnone
    exact absurd hinstall (htail item hitem).2

theorem mem_installOverrides {override : PatchDecisionOverride} :
    override ∈ installOverrides js env input ↔ DeviceWide js env input override := by
  simp only [installOverrides, activeOverrides, matchingOverrides, overrideUpdateMatches,
    List.mem_filter, Bool.not_eq_true', Bool.or_eq_true, decide_eq_true_eq]
  constructor
  · rintro ⟨⟨⟨⟨hmem, hcurrent⟩, hscope⟩, huntargeted⟩, haction⟩
    exact ⟨⟨hmem, hcurrent, hscope⟩, huntargeted, by simpa [or_assoc] using haction⟩
  · rintro ⟨⟨hmem, hcurrent, hscope⟩, huntargeted, haction⟩
    exact ⟨⟨⟨⟨hmem, hcurrent⟩, hscope⟩, huntargeted⟩, by simpa [or_assoc] using haction⟩

theorem overrideOperationId_installOverrides {operationId : String} :
    overrideOperationId (installOverrides js env input) = some operationId ↔
      FirstOperation js env input operationId := by
  obtain ⟨p, hp⟩ : ∃ p, installOverrides js env input = input.overrides.filter p := by
    simp only [installOverrides, activeOverrides, matchingOverrides, List.filter_filter]
    exact ⟨_, rfl⟩
  have hdevice : ∀ override ∈ input.overrides,
      (p override = true ↔ DeviceWide js env input override) := by
    intro override hmem
    rw [← mem_installOverrides, hp, List.mem_filter, and_iff_right hmem]
  rw [hp, overrideOperationId_filter_eq_some_iff]
  refine exists₃_congr fun earlier first later => and_congr_right fun hsplit => ?_
  rw [hdevice first (by simp [hsplit])]
  refine and_congr_right fun _ => and_congr_right fun _ => and_congr_right fun _ =>
    forall₂_congr fun other hother => ?_
  rw [hdevice other (by simp [hsplit, hother])]

/-- The listed overrides are among those that the log entry of the action
names. -/
theorem mem_readOverrideIds_of_listed (plan : PatchActionPlan) {id : String}
    (h : id ∈ listedOverrideIds item) (hid : trim id ≠ "") :
    id ∈ readOverrideIdsFromDecisionDetails (decisionDetails plan item) := by
  have hmetadata : asRecord ((((JavaScript.asRecord (some (decisionDetails plan item))).getD [])
      : Record).get? "metadata") = item.metadata := rfl
  unfold listedOverrideIds asArray at h
  split at h
  next elements helements =>
    obtain ⟨value, hvalue, htext⟩ := List.mem_filterMap.mp h
    unfold readOverrideIdsFromDecisionDetails
    rw [show (JavaScript.asRecord (((JavaScript.asRecord (some (decisionDetails plan item))).getD []
      : Record).get? "metadata")).getD [] = item.metadata from hmetadata]
    simp only [helements, coalesce]
    refine List.mem_filterMap.mpr ⟨value, hvalue, ?_⟩
    cases value with
    | str text =>
      cases htext
      exact if_neg hid
    | _ => cases htext
  · cases h

/-- A completed report of the action disables every one-shot override on its
list. -/
theorem disabled_of_listed {plan : PatchActionPlan} {device : Device} {db db' : PatchDatabase}
    {entry : DecisionLogRow}
    (hlatest : latestDecision db device.organizationId device.agentId item.operationId = some entry)
    (hdetails : entry.details = decisionDetails plan item) (hoperation : item.operationId ≠ "")
    (hreport :
      disableCompletedOneShotOverrides device (some item.operationId) "completed" db = .ok db')
    {id : String} (hlisted : id ∈ listedOverrideIds item) (hid : trim id ≠ "") :
    ∀ row ∈ db'.overrides, row.organizationId = device.organizationId → row.id = id →
      row.action ∈ oneShotActions → row.enabled = false := by
  have hread := mem_readOverrideIds_of_listed plan hlisted hid
  unfold disableCompletedOneShotOverrides at hreport
  simp only [Option.filter_some, hoperation, ne_eq, not_false_eq_true, decide_true, if_true,
    true_or, not_true_eq_false, if_false] at hreport
  split at hreport
  · cases hreport
  · cases hreport
    intro row hrow horganization hrowId honeShot
    obtain ⟨old, -, hold⟩ := Relational.mem_update.mp hrow
    split at hold
    next => rw [← hold]
    next hkept =>
      rw [hold] at hkept
      simpa [hlatest, hdetails, horganization, hrowId, honeShot, hread] using hkept

end

/-! ## The request behind an install action -/

/-- The install action belongs to a request for an update exactly when `RequestNamed` holds,
whichever update it is, and the completed report of the action disables the requests that it
lists. Drawn identifiers are taken to be no operation of an override, and overrides to be told
apart by their identifiers. -/
theorem forced_update_tied_iff (js : Runtime) (env : Environment) (input : EvaluatePatchPlanInput)
    (hfresh : ∀ index, ∀ override ∈ input.overrides,
      override.operationId ≠ some (env.randomUUID index))
    (hids : (input.overrides.map (·.id)).Nodup)
    (plan : PatchActionPlan) (hplan : evaluatePatchActionPlan js env input = some plan)
    (item : PatchActionPlanItem) (hmem : item ∈ plan.actions) (hinstall : item.action = .install) :
    (∀ update, (∃ request operationId, ForcedRequest js env input update request operationId ∧
        item.operationId = operationId ∧ request.id ∈ listedOverrideIds item) ↔
      RequestNamed js env input) ∧
    (∀ request : PatchDecisionOverride, request.id ∈ listedOverrideIds item →
      trim request.id ≠ "" → item.operationId ≠ "" → ∀ (device : Device) (db db' : PatchDatabase)
        (entry : DecisionLogRow),
      latestDecision db device.organizationId device.agentId item.operationId = some entry →
      entry.details = decisionDetails plan item →
      disableCompletedOneShotOverrides device (some item.operationId) "completed" db = .ok db' →
      ∀ row ∈ db'.overrides, row.organizationId = device.organizationId → row.id = request.id →
        row.action ∈ oneShotActions → row.enabled = false) := by
  obtain ⟨state, index, rfl⟩ := exists_installItem_of_plan hplan hmem hinstall
  constructor
  · intro update
    rw [listedOverrideIds_installItem]
    constructor
    · rintro ⟨request, operationId, hrequest, hoperation, hlisted⟩
      have hdevice : DeviceWide js env input request := by
        -- a listed override has the identifier of the request, so it is the request
        obtain ⟨listed, hlisted, hid⟩ := List.mem_map.mp hlisted
        have hlisted := mem_installOverrides.mp hlisted
        rwa [← List.inj_on_of_nodup_map hids hlisted.mem hrequest.mem hid]
      refine ⟨request, operationId, hdevice, hrequest.forces, hrequest.operation, ?_⟩
      rw [← overrideOperationId_installOverrides]
      cases hfound : overrideOperationId (installOverrides js env input) with
      | none =>
        -- without an operation among the overrides the action has a drawn one
        have hdrawn : env.randomUUID index = operationId := by
          simpa [installItem, action, installOptions, hfound] using hoperation
        exact absurd (hdrawn ▸ hrequest.operation) (hfresh index request hrequest.mem)
      | some found =>
        have hsame : found = operationId := by
          simpa [installItem, action, installOptions, hfound] using hoperation
        rw [hsame]
    · rintro ⟨request, operationId, hdevice, hforces, hoperation, hfirst⟩
      -- an override that names no update matches each of them
      have hmatches := overrideUpdateMatches_of_untargeted js hdevice.untargeted
        (some (update, classifyPatchCategory js update))
      have hnamed : trim operationId ≠ "" := by
        obtain ⟨_, _, _, _, _, _, hnamed, _⟩ := hfirst
        exact hnamed
      refine ⟨request, operationId, ⟨hdevice.toActive, hmatches, hforces, hoperation, hnamed⟩, ?_,
        List.mem_map_of_mem (mem_installOverrides.mpr hdevice)⟩
      simp [installItem, action, installOptions, overrideOperationId_installOverrides.mpr hfirst]
  · intro request hlisted hid hoperation device db db' entry hlatest hdetails hreport
    exact disabled_of_listed hlatest hdetails hoperation hreport hlisted hid

/-! ## Fixed inputs -/

/-- A request to install, for the whole device or for one update. -/
def installRequest (updateKey : Option String) : PatchDecisionOverride :=
  { deviceOverride "request" .forceInstall with operationId := some "operation", updateKey }

/-- Operation and listed overrides of the install actions of a plan. -/
def installRequests (plan : PatchActionPlan) : List (String × List String) :=
  (plan.actions.filter (·.action = .install)).map fun item =>
    (item.operationId, listedOverrideIds item)

def deviceWideInput : EvaluatePatchPlanInput :=
  deviceInput [detectedUpdate "tool|kb1"] [installRequest none]

theorem forced_update_tied_iff_deviceWideInput :
    ∃ plan item, evaluatePatchActionPlan .bare epochEnvironment deviceWideInput = some plan ∧
      item ∈ plan.actions ∧ item.action = .install ∧ item.updateKeys = ["tool|kb1"] ∧
      ∃ request operationId, ForcedRequest .bare epochEnvironment deviceWideInput
          (detectedUpdate "tool|kb1") request operationId ∧
        item.operationId = operationId ∧ request.id ∈ listedOverrideIds item := by
  have hnamed : (evaluatePatchActionPlan .bare epochEnvironment deviceWideInput).map namedUpdates
      = some [(.install, ["tool|kb1"])] := by
    decide +kernel
  obtain ⟨plan, hplan, hnamed⟩ := Option.map_eq_some_iff.mp hnamed
  have hinstall : (PatchPlanActionType.install, ["tool|kb1"]) ∈ namedUpdates plan := by
    simp [hnamed]
  obtain ⟨item, hmem, hitem⟩ := List.mem_map.mp hinstall
  rw [Prod.mk.injEq] at hitem
  have hfresh : ∀ index, ∀ override ∈ deviceWideInput.overrides,
      override.operationId ≠ some (epochEnvironment.randomUUID index) := by
    simp [deviceWideInput, deviceInput, installRequest, epochEnvironment]
  have hdevice : DeviceWide .bare epochEnvironment deviceWideInput (installRequest none) :=
    ⟨⟨List.mem_singleton_self _, by decide +kernel, by decide +kernel⟩, by decide, by decide⟩
  refine ⟨plan, item, hplan, hmem, hitem.1, hitem.2, ?_⟩
  exact ((forced_update_tied_iff .bare epochEnvironment deviceWideInput hfresh
    (List.nodup_singleton _) plan hplan item hmem hitem.1).1 (detectedUpdate "tool|kb1")).mpr
      ⟨_, "operation", hdevice, .inl rfl, rfl, [], _, [], rfl, hdevice, rfl, by decide, by simp⟩

/-- The request of one update is active for it, but the install action has
neither its operation nor its identifier. -/
theorem request_for_one_update_not_named : (updateOverrides .bare epochEnvironment
        (deviceInput [detectedUpdate "tool|kb1"] [installRequest (some "tool|kb1")])
        (detectedUpdate "tool|kb1")) = [installRequest (some "tool|kb1")] ∧
    (evaluatePatchActionPlan .bare epochEnvironment
      (deviceInput [detectedUpdate "tool|kb1"] [installRequest (some "tool|kb1")])).map namedUpdates
      = some [(.scan, []), (.install, ["tool|kb1"])] ∧
    (evaluatePatchActionPlan .bare epochEnvironment
      (deviceInput [detectedUpdate "tool|kb1"] [installRequest (some "tool|kb1")])).map
        installRequests = some [("uuid", [])] := by
  refine ⟨by decide +kernel, by decide +kernel, by decide +kernel⟩

end Talos.Decision
