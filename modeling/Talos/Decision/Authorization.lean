import Talos.Decision.Placement

/-!
# Install authorization

An update is named by an install action only when the device and the update
allow it, and a plan that considers its updates names each pending one in
exactly one install, blocked or deferred action. The second part has one gap:
`uniqueActions` compares actions by a text in which the update keys and the
reason are joined by `|`, so that the actions of two updates can have the same
text, and the later one is lost.
-/

namespace Talos.Decision

open JavaScript

section

variable (js : Runtime) (env : Environment) (input : EvaluatePatchPlanInput)

/-- The conditions under which an update may be installed. A forced scan does
not stop a manual install of the whole device. -/
structure InstallAuthorized (update : PatchDecisionUpdate) : Prop
    extends UpdateAuthorized js env input update where
  managed : input.device.patchManaged = true ∧ (policyConfig input).managedMode = true
  not_maintenance : inMaintenance js env input = false
  no_force_reboot : ∀ override ∈ activeOverrides js env input, override.action ≠ .forceReboot
  no_force_scan :
    (∀ override ∈ activeOverrides js env input, override.action ≠ .forceScan) ∨
      ∃ override ∈ activeOverrides js env input,
        override.action = .forceInstall ∨ override.action = .forceDownload

/-- The key of the update and the reason for which it is blocked or deferred, joined by
a `|`, read like those of an earlier action of that type. -/
inductive Shadowed (update : PatchDecisionUpdate) : Prop where
  | byUpdate {other : PatchDecisionUpdate} {type : PatchPlanActionType} {reason reason' : String}
      {options options' : ActionOptions} (earlier : [other, update].Sublist input.updates)
      (own : evaluateUpdate js env input update = some (.push type reason options))
      (others : evaluateUpdate js env input other = some (.push type reason' options'))
      (same : other.updateKey ++ "|" ++ reason' = update.updateKey ++ "|" ++ reason)
  | byScan {reason : String} {options : ActionOptions}
      (deferred : scanDeferred js env input = true)
      (own : evaluateUpdate js env input update = some (.push .defer reason options))
      (same : "|Scan is due but outside the scan window." = update.updateKey ++ "|" ++ reason)
  | otherVersion {blocked : BlockedCandidate} {other : PatchDecisionUpdate} {reason' : String}
      {options' : ActionOptions} (own : blocked ∈ (selection js env input).blocked)
      (key : blocked.update.updateKey = update.updateKey) (mem : other ∈ input.updates)
      (others : evaluateUpdate js env input other = some (.push .blocked reason' options'))
      (same : other.updateKey ++ "|" ++ reason' = update.updateKey ++ "|" ++ blocked.reason)

/-- The dates that a plan may have to print are valid ones. -/
structure DatesPrintable : Prop where
  checkIn : (isoDate ((nowMs js env input).getTime.add (checkInMs input))).isSome = true
  eligible : ∀ update ∈ input.updates, (isoDate (eligibleMs js env input update)).isSome = true
  deadline : ∀ update ∈ input.updates,
    (isoDateOrNull (installDeadlineMs js env input update)).isSome = true

end

section

variable {js : Runtime} {env : Environment} {input : EvaluatePatchPlanInput}

theorem not_mem_of_activeOf_isEmpty {type : PatchOverrideAction}
    (h : (activeOf js env input type).isEmpty = true) :
    ∀ override ∈ activeOverrides js env input, override.action ≠ type := by
  intro override hmem haction
  have hactive : override ∈ activeOf js env input type :=
    List.mem_filter.mpr ⟨hmem, by simpa using haction⟩
  rw [List.isEmpty_iff.mp h] at hactive
  cases hactive

/-- A plan that reaches its updates leaves only the update to be judged. -/
theorem installAuthorized_of_considersUpdates (h : considersUpdates js env input = true)
    {update : PatchDecisionUpdate} (hupdate : UpdateAuthorized js env input update) :
    InstallAuthorized js env input update := by
  simp only [considersUpdates, managedMode, Bool.and_eq_true, Bool.or_eq_true,
    Bool.not_eq_true'] at h
  obtain ⟨⟨⟨hmanaged, hreboot⟩, hmaintenance⟩, hscan⟩ := h
  refine ⟨hupdate, hmanaged, hmaintenance, not_mem_of_activeOf_isEmpty hreboot, ?_⟩
  rcases hscan with hmanual | hscan
  · simp only [hasManualInstallOnly, Bool.and_eq_true, List.any_eq_true, Bool.or_eq_true,
      decide_eq_true_eq] at hmanual
    exact .inr hmanual.2
  · exact .inl (not_mem_of_activeOf_isEmpty hscan)

theorem evaluatePatchActionPlan_eq_some {plan : PatchActionPlan}
    (h : evaluatePatchActionPlan js env input = some plan) :
    ∃ actions, plannedActions js env input = some actions ∧
      plan.actions = uniqueActions actions := by
  simp only [evaluatePatchActionPlan, Option.bind_eq_bind, Option.bind_eq_some_iff] at h
  obtain ⟨actions, hactions, _, _, h⟩ := h
  exact ⟨actions, hactions, by rw [← Option.some.inj h]⟩

/-! ## The gap -/

/-- A report of the update does not read like the other one. -/
def Apart (update : PatchDecisionUpdate) (other report : Report) : Prop :=
  update.updateKey ∈ report.keys → other.text ≠ report.text

theorem apart_of_type_ne {update : PatchDecisionUpdate} {other report : Report}
    (h : other.type ≠ report.type) : Apart update other report :=
  fun _ htext => h (text_eq_iff.mp htext).1

theorem apart_of_keys_nil {update : PatchDecisionUpdate} {other report : Report}
    (h : report.keys = []) : Apart update other report :=
  fun hkey _ => by simp [h] at hkey

section

variable {update : PatchDecisionUpdate} (hkeys : (input.updates.map (·.updateKey)).Nodup)
  (hmem : update ∈ input.updates) (hshadow : ¬ Shadowed js env input update)

include hkeys hmem hshadow

theorem pairwise_turns :
    (input.updates.filterMap (turnReport js env input)).Pairwise (Apart update) := by
  rw [List.pairwise_filterMap, List.pairwise_iff_forall_sublist]
  intro other update' hearlier report hreport report' hreport' hkey htext
  obtain ⟨type, reason, options, hother, rfl, -⟩ := turnReport_eq_some hreport
  obtain ⟨type', reason', options', hown, rfl, -⟩ := turnReport_eq_some hreport'
  obtain rfl := List.inj_on_of_nodup_map hkeys (hearlier.subset (by simp)) hmem
    (List.mem_singleton.mp hkey).symm
  obtain ⟨rfl, hsaid⟩ := text_eq_iff.mp htext
  exact hshadow (.byUpdate hearlier hown hother hsaid)

theorem apart_scanned_turn {other report : Report}
    (hother : other ∈ reports (scanActions js env input (nativeControlActions env input)))
    (hreport : report ∈ input.updates.filterMap (turnReport js env input)) :
    Apart update other report := by
  intro hkey htext
  obtain ⟨update', hmem', hreport⟩ := List.mem_filterMap.mp hreport
  obtain ⟨type, reason, options, hown, rfl, hreported⟩ := turnReport_eq_some hreport
  obtain rfl := List.inj_on_of_nodup_map hkeys hmem' hmem (List.mem_singleton.mp hkey).symm
  obtain ⟨htype, hsaid⟩ := text_eq_iff.mp htext
  rcases (mem_scanned hother).2 with hnative | hscan | ⟨rfl, hdeferred⟩
  · rcases hreported with rfl | rfl <;> rw [hnative] at htype <;> cases htype
  · rcases hreported with rfl | rfl <;> rw [hscan] at htype <;> cases htype
  · cases htype
    exact hshadow (.byScan hdeferred hown hsaid)

omit hkeys hmem in
theorem apart_turn_blocked {other report : Report}
    (hother : other ∈ input.updates.filterMap (turnReport js env input))
    (hreport : report ∈ (selection js env input).blocked.map (·.report)) :
    Apart update other report := by
  intro hkey htext
  obtain ⟨blocked, hblocked, rfl⟩ := List.mem_map.mp hreport
  obtain ⟨update', hmem', hother⟩ := List.mem_filterMap.mp hother
  obtain ⟨type, reason, options, hstep, rfl, -⟩ := turnReport_eq_some hother
  obtain ⟨htype, hsaid⟩ := text_eq_iff.mp htext
  cases htype
  have hown : update.updateKey = blocked.update.updateKey := List.mem_singleton.mp hkey
  exact hshadow (.otherVersion hblocked hown.symm hmem' hstep (hown ▸ hsaid))

omit hmem hshadow in
theorem pairwise_blocked :
    ((selection js env input).blocked.map (·.report)).Pairwise (Apart update) := by
  have hsplit : SplitsKeys _ (selection js env input) :=
    constrainMacosOsVersionInstallSelection_splitsKeys hkeys input.device _
  obtain ⟨reason, hreason⟩ := hsplit.reason
  rw [List.pairwise_map]
  refine (List.pairwise_map.mp hsplit.nodup).imp_of_mem fun {first second} hfirst hsecond hne => ?_
  intro _ htext
  have hsaid := (text_eq_iff.mp htext).2
  rw [BlockedCandidate.report, BlockedCandidate.report, hreason _ hfirst,
    hreason _ hsecond] at hsaid
  exact hne ((String.append_left_inj _).mp ((String.append_left_inj _).mp hsaid))

theorem pairwise_reports {actions : List PatchActionPlanItem}
    (hactions : updateActions js env input = some actions) :
    (reports actions).Pairwise (Apart update) := by
  obtain ⟨tail, hreports, htail⟩ := updateActions_reports hactions
  have hlast : ∀ other, ∀ report ∈ tail, Apart update other report :=
    fun other report hreport => apart_of_keys_nil (htail report hreport)
  have hinstall : ∀ other, other.type ≠ .install → ∀ report ∈ installReports js env input,
      Apart update other report := by
    intro other hother report hreport
    rw [mem_installReports hreport]
    exact apart_of_type_ne hother
  have hsingle : (installReports js env input).Pairwise (Apart update) := by
    unfold installReports
    split <;> simp
  rw [hreports, updateReports, List.append_assoc, List.append_assoc]
  -- the scan, the turns, the versions left out, the installs and the rest, each after those before
  refine List.pairwise_append.mpr ⟨List.pairwise_of_forall_mem_list fun other _ report hreport =>
    apart_of_keys_nil (mem_scanned hreport).1, List.pairwise_append.mpr ⟨pairwise_turns hkeys
      hmem hshadow, List.pairwise_append.mpr ⟨pairwise_blocked hkeys, List.pairwise_append.mpr
        ⟨hsingle, List.pairwise_of_forall_mem_list fun other _ => hlast other,
          fun other _ => hlast other⟩, ?_⟩, ?_⟩, ?_⟩
  all_goals simp only [List.mem_append]
  · rintro other hother report (hreport | hreport)
    · obtain ⟨blocked, -, rfl⟩ := List.mem_map.mp hother
      exact hinstall _ (fun htype => by cases htype) report hreport
    · exact hlast other report hreport
  · rintro other hother report (hreport | hreport | hreport)
    · exact apart_turn_blocked hshadow hother hreport
    · refine hinstall other ?_ report hreport
      obtain ⟨update', -, hother⟩ := List.mem_filterMap.mp hother
      obtain ⟨_, _, _, -, rfl, rfl | rfl⟩ := turnReport_eq_some hother <;> simp
    · exact hlast other report hreport
  · intro other hother report hreport
    have htype := (mem_scanned hother).2
    rcases hreport with hreport | hreport | hreport | hreport
    · exact apart_scanned_turn hkeys hmem hshadow hother hreport
    · obtain ⟨blocked, -, rfl⟩ := List.mem_map.mp hreport
      refine apart_of_type_ne ?_
      rcases htype with htype | htype | ⟨rfl, -⟩ <;> simp [*, scanReport, BlockedCandidate.report]
    · refine hinstall other ?_ report hreport
      rcases htype with htype | htype | ⟨rfl, -⟩ <;> simp [*, scanReport]
    · exact hlast other report hreport

/-- The action that names an update is lost only when the update is shadowed. -/
theorem mentioning_uniqueActions {actions : List PatchActionPlanItem} {item : PatchActionPlanItem}
    (hactions : updateActions js env input = some actions)
    (hsingle : mentioning update.updateKey actions = [item]) :
    mentioning update.updateKey (uniqueActions actions) = [item] := by
  have hitem : item ∈ mentioning update.updateKey actions := by simp [hsingle]
  obtain ⟨hitem, hkey⟩ := List.mem_filter.mp hitem
  have hkept : item ∈ uniqueActions actions := by
    refine mem_uniqueFrom hitem List.not_mem_nil ?_
    refine (List.pairwise_map.mp (pairwise_reports hkeys hmem hshadow hactions)).imp ?_
    rintro other _ hapart rfl
    rw [← text_of, ← text_of]
    exact hapart (of_decide_eq_true hkey)
  have hsublist : (mentioning update.updateKey (uniqueActions actions)).Sublist [item] :=
    hsingle ▸ (uniqueFrom_sublist [] actions).filter _
  refine (List.sublist_singleton.mp hsublist).resolve_left fun hempty => ?_
  exact List.filter_eq_nil_iff.mp hempty item hkept hkey

end

/-! ## A plan is returned -/

theorem evaluateUpdate_isSome {update : PatchDecisionUpdate}
    (heligible : (isoDate (eligibleMs js env input update)).isSome = true)
    (hdeadline : (isoDateOrNull (installDeadlineMs js env input update)).isSome = true) :
    (evaluateUpdate js env input update).isSome = true := by
  obtain ⟨eligible, heligible⟩ := Option.isSome_iff_exists.mp heligible
  obtain ⟨deadline, hdeadline⟩ := Option.isSome_iff_exists.mp hdeadline
  have hpolicy : (decideByPolicy js env input update).isSome = true := by
    unfold decideByPolicy
    simp only [heligible, hdeadline]
    repeat' split
    all_goals rfl
  unfold evaluateUpdate
  dsimp only
  split
  · rfl
  · split
    · rfl
    · split
      · rfl
      · rfl
      · exact hpolicy

theorem evaluateUpdates_isSome {updates : List PatchDecisionUpdate}
    (h : ∀ update ∈ updates, (evaluateUpdate js env input update).isSome = true)
    (state : LoopState) : (evaluateUpdates js env input updates state).isSome = true := by
  induction updates generalizing state with
  | nil => rfl
  | cons update updates ih =>
    obtain ⟨step, hstep⟩ := Option.isSome_iff_exists.mp (h update List.mem_cons_self)
    rw [evaluateUpdates, hstep, Option.bind_some]
    exact ih (fun later hlater => h later (List.mem_cons_of_mem _ hlater)) _

theorem evaluatePatchActionPlan_isSome (h : DatesPrintable js env input) :
    ∃ plan, evaluatePatchActionPlan js env input = some plan := by
  have hupdates : (updateActions js env input).isSome = true := by
    rw [updateActions, Option.isSome_map]
    exact evaluateUpdates_isSome (fun update hmem =>
      evaluateUpdate_isSome (h.eligible update hmem) (h.deadline update hmem)) _
  have hplanned : (plannedActions js env input).isSome = true := by
    unfold plannedActions
    dsimp only
    repeat' split
    all_goals first
      | rfl
      | exact hupdates
  obtain ⟨actions, hactions⟩ := Option.isSome_iff_exists.mp hplanned
  obtain ⟨nextCheckInAt, hnext⟩ := Option.isSome_iff_exists.mp h.checkIn
  simp [evaluatePatchActionPlan, hactions, hnext]

end

/-! ## The authorization -/

theorem installs_authorized (js : Runtime) (env : Environment) (input : EvaluatePatchPlanInput)
    (hkeys : (input.updates.map (·.updateKey)).Nodup) :
    (∀ plan, evaluatePatchActionPlan js env input = some plan → ∀ update ∈ input.updates,
      (∀ item ∈ plan.actions, item.action = .install → update.updateKey ∈ item.updateKeys →
        InstallAuthorized js env input update) ∧
      (mentioning update.updateKey plan.actions).length ≤ 1 ∧
      (considersUpdates js env input = true → isPending js env input update = true →
        ¬ Shadowed js env input update →
        ∃ item, mentioning update.updateKey plan.actions = [item] ∧
          (item.action = .install ∨ item.action = .blocked ∨ item.action = .defer))) ∧
    (DatesPrintable js env input → ∃ plan, evaluatePatchActionPlan js env input = some plan) := by
  refine ⟨fun plan hplan update hmem => ?_, evaluatePatchActionPlan_isSome⟩
  obtain ⟨actions, hactions, hunique⟩ := evaluatePatchActionPlan_eq_some hplan
  have hsublist : (mentioning update.updateKey plan.actions).Sublist
      (mentioning update.updateKey actions) := by
    rw [hunique]
    exact (uniqueFrom_sublist [] actions).filter _
  have hmentions : ∀ item ∈ plan.actions, update.updateKey ∈ item.updateKeys →
      item ∈ mentioning update.updateKey actions := fun item hitem hkey =>
    hsublist.subset (mem_of_mem_mentioning hitem hkey)
  rcases plannedActions_cases hactions with ⟨hconsiders, hupdates⟩ | ⟨hconsiders, hnone⟩
  · have hkept : ¬ Shadowed js env input update → ∀ item,
        mentioning update.updateKey actions = [item] →
          mentioning update.updateKey plan.actions = [item] := fun hshadow item hsingle =>
      hunique ▸ mentioning_uniqueActions hkeys hmem hshadow hupdates hsingle
    cases updateActions_settled hkeys hupdates hmem with
    | skipped hpending hempty =>
      rw [List.map_eq_nil_iff.mp hempty] at hsublist hmentions
      refine ⟨fun item hitem _ hkey => ?_, hsublist.length_le.trans (Nat.zero_le 1), ?_⟩
      · exact absurd (hmentions item hitem hkey) List.not_mem_nil
      · intro _ hpending'
        rw [hpending] at hpending'
        cases hpending'
    | reported report htype hone =>
      obtain ⟨item, hsingle, rfl⟩ := List.map_eq_singleton_iff.mp hone
      refine ⟨fun other hother hinstall hkey => ?_, ?_, fun _ _ hshadow => ?_⟩
      · have heq := hmentions other hother hkey
        rw [hsingle, List.mem_singleton] at heq
        rw [heq] at hinstall
        have htype' : item.action = .blocked ∨ item.action = .defer := htype
        rcases htype' with htype | htype <;> rw [htype] at hinstall <;> cases hinstall
      · exact hsublist.length_le.trans (by rw [hsingle]; rfl)
      · exact ⟨item, hkept hshadow item hsingle, .inr htype⟩
    | installed report htype hauthorized hone =>
      obtain ⟨item, hsingle, rfl⟩ := List.map_eq_singleton_iff.mp hone
      refine ⟨fun _ _ _ _ => installAuthorized_of_considersUpdates hconsiders hauthorized, ?_,
        fun _ _ hshadow => ⟨item, hkept hshadow item hsingle, .inl htype⟩⟩
      exact hsublist.length_le.trans (by rw [hsingle]; rfl)
  · obtain ⟨tail, rfl, htail⟩ := hnone
    have hempty : mentioning update.updateKey actions = [] :=
      List.filter_eq_nil_iff.mpr fun item hitem => by simp [(htail item hitem).1]
    rw [hempty] at hsublist hmentions
    refine ⟨fun item hitem _ hkey => ?_, hsublist.length_le.trans (Nat.zero_le 1), ?_⟩
    · exact absurd (hmentions item hitem hkey) List.not_mem_nil
    · intro hconsiders'
      rw [hconsiders] at hconsiders'
      cases hconsiders'

/-! ## Fixed inputs -/

/-- A security update that was detected at the time of the evaluation. -/
def detectedUpdate (updateKey : String) : PatchDecisionUpdate where
  updateKey := updateKey
  title := "tool"
  kbArticle := none
  category := some "security"
  lifecycleState := none
  releaseDate := none
  firstDetectedAt := none
  downloadedAt := none
  superseded := none

/-- An override for the device without a target. -/
def deviceOverride (id : String) (action : PatchOverrideAction) : PatchDecisionOverride where
  id := id
  scopeType := .device
  scopeKey := "agent"
  action := action
  operationId := none
  updateKey := none
  kbArticle := none
  category := none
  reason := none
  deferUntil := none
  expiresAt := none
  enabled := none

/-- A managed Linux workstation without a policy of its own. -/
def deviceInput (updates : List PatchDecisionUpdate) (overrides : List PatchDecisionOverride) :
    EvaluatePatchPlanInput where
  now := none
  device :=
    { organizationId := "org", agentId := "agent", os := "linux", customerId := none
      siteId := none, deviceType := .workstation, patchRing := .broad, patchManaged := true
      nativeWindowsUpdateControl := true, patchMaintenanceModeUntil := none, patchTags := []
      rebootRequired := none, lastScanAt := none }
  policy := none
  updates := updates
  overrides := overrides
  groupIds := []

def epochEnvironment : Environment where
  dateNow := ⟨0, by decide⟩
  randomUUID _ := "uuid"

/-- The keys of the updates that each action of a plan names, with the type of
the action. -/
def namedUpdates (plan : PatchActionPlan) : List (PatchPlanActionType × List String) :=
  plan.actions.map fun item => (item.action, item.updateKeys)

def blockedAndAllowed : EvaluatePatchPlanInput :=
  deviceInput [detectedUpdate "tool|kb1", detectedUpdate "tool|kb2"]
    [{ deviceOverride "b" .block with updateKey := some "tool|kb2" }]

theorem installs_authorized_blockedAndAllowed :
    ∃ plan, evaluatePatchActionPlan .bare epochEnvironment blockedAndAllowed = some plan ∧
      namedUpdates plan = [(.scan, []), (.blocked, ["tool|kb2"]), (.install, ["tool|kb1"])] ∧
      InstallAuthorized .bare epochEnvironment blockedAndAllowed (detectedUpdate "tool|kb1") := by
  have hnamed : (evaluatePatchActionPlan .bare epochEnvironment blockedAndAllowed).map namedUpdates
      = some [(.scan, []), (.blocked, ["tool|kb2"]), (.install, ["tool|kb1"])] := by
    decide +kernel
  obtain ⟨plan, hplan, hnamed⟩ := Option.map_eq_some_iff.mp hnamed
  have hinstall : (PatchPlanActionType.install, ["tool|kb1"]) ∈ namedUpdates plan := by
    simp [hnamed]
  obtain ⟨item, hmem, hitem⟩ := List.mem_map.mp hinstall
  rw [Prod.mk.injEq] at hitem
  refine ⟨plan, hplan, hnamed, ?_⟩
  exact ((installs_authorized _ _ _ (by decide)).1 plan hplan (detectedUpdate "tool|kb1")
    (by simp [blockedAndAllowed, deviceInput])).1 item hmem hitem.1
      (by simp [hitem.2, detectedUpdate])

/-- A forced scan next to a manual install of the device, and two blocked
updates whose actions have one text. -/
theorem install_under_force_scan_and_block_lost :
    ((activeOf .bare epochEnvironment (deviceInput [detectedUpdate "tool|kb1"]
        [deviceOverride "s" .forceScan, deviceOverride "i" .forceInstall]) .forceScan).map (·.id)
        = ["s"] ∧
      (evaluatePatchActionPlan .bare epochEnvironment (deviceInput [detectedUpdate "tool|kb1"]
        [deviceOverride "s" .forceScan, deviceOverride "i" .forceInstall])).map namedUpdates
        = some [(.install, ["tool|kb1"])]) ∧
    (evaluatePatchActionPlan .bare epochEnvironment
      (deviceInput [detectedUpdate "tool|kb1", detectedUpdate "tool|kb1|x"]
        [{ deviceOverride "a" .block with updateKey := some "tool|kb1", reason := some "x|held" },
          { deviceOverride "b" .block with
            updateKey := some "tool|kb1|x", reason := some "held" }])).map namedUpdates
      = some [(.scan, []), (.blocked, ["tool|kb1"])] := by
  refine ⟨⟨by decide +kernel, by decide +kernel⟩, by decide +kernel⟩

end Talos.Decision
