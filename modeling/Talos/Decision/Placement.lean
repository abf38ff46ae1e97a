import Talos.Decision.Engine

/-!
# Where the loop puts an update

Each turn of the loop over the updates skips its update, pushes one blocked or
deferred action that names it, or adds its key to the install keys, and the
selection of one macOS version only moves a key from the install action to a
blocked one. So what a plan says of the updates is a list that depends on the
updates alone, and when their keys are distinct it settles each of them once.
-/

namespace Talos.Decision

open JavaScript

/-- The actions that name an update. -/
def mentioning (key : String) (actions : List PatchActionPlanItem) : List PatchActionPlanItem :=
  actions.filter fun item => key ∈ item.updateKeys

variable {actions : List PatchActionPlanItem} {item : PatchActionPlanItem}

variable {key : String}

theorem mem_of_mem_mentioning (hmem : item ∈ actions) (hkey : key ∈ item.updateKeys) :
    item ∈ mentioning key actions :=
  List.mem_filter.mpr ⟨hmem, by simpa using hkey⟩

/-! ## What a list of actions says -/

/-- What the de-duplication reads of an action. -/
structure Report where
  type : PatchPlanActionType
  keys : List String
  reason : String

def Report.of (item : PatchActionPlanItem) : Report := ⟨item.action, item.updateKeys, item.reason⟩

def reports (actions : List PatchActionPlanItem) : List Report := actions.map .of

/-- The reports that name an update. -/
def naming (key : String) (said : List Report) : List Report := said.filter (key ∈ ·.keys)

theorem reports_append (actions actions' : List PatchActionPlanItem) :
    reports (actions ++ actions') = reports actions ++ reports actions' :=
  List.map_append

theorem reports_push (env : Environment) (actions : List PatchActionPlanItem)
    (type : PatchPlanActionType) (reason : String) (options : ActionOptions) :
    reports (push env actions type reason options)
      = reports actions ++ [⟨type, options.updateKeys, reason⟩] :=
  reports_append ..

theorem reports_mentioning (key : String) (actions : List PatchActionPlanItem) :
    reports (mentioning key actions) = naming key (reports actions) := by
  rw [naming, reports, reports, List.filter_map]
  rfl

theorem naming_append (key : String) (said said' : List Report) :
    naming key (said ++ said') = naming key said ++ naming key said' :=
  List.filter_append ..

theorem naming_eq_nil {said : List Report} (h : ∀ report ∈ said, key ∉ report.keys) :
    naming key said = [] :=
  List.filter_eq_nil_iff.mpr fun report hmem => by simpa using h report hmem

/-- Where keys are distinct, one element has a given key. -/
theorem filter_key_eq {α : Type} {f : α → String} {l : List α} {a : α} (hkeys : (l.map f).Nodup)
    (hmem : a ∈ l) : l.filter (f · = f a) = [a] := by
  induction l with
  | nil => cases hmem
  | cons b l ih =>
    rw [List.map_cons, List.nodup_cons] at hkeys
    rcases List.mem_cons.mp hmem with rfl | hmem
    · rw [List.filter_cons_of_pos (by simp), List.filter_eq_nil_iff.mpr]
      intro x hx heq
      exact hkeys.1 (of_decide_eq_true heq ▸ List.mem_map_of_mem hx)
    · rw [List.filter_cons_of_neg, ih hkeys.2 hmem]
      intro heq
      exact hkeys.1 (of_decide_eq_true heq ▸ List.mem_map_of_mem hmem)

section

variable {js : Runtime} {env : Environment} {input : EvaluatePatchPlanInput}

/-! ## One update -/

variable (js env input) in
/-- An update that still waits for a decision: neither installed nor replaced
by another one (unless it was downloaded with it), and not failed without a
request to try again. -/
def isPending (update : PatchDecisionUpdate) : Bool :=
  lifecycleOf update ≠ "installed"
    && (downloadedTransactionMember update || !isSuperseded update)
    && (lifecycleOf update ≠ "failed" || forcedByOverride js env input update)

variable (js env input) in
/-- An active override of the update asks for its installation. -/
def ForceOrEmergency (update : PatchDecisionUpdate) : Prop :=
  ∃ override ∈ updateOverrides js env input update,
    override.action = .forceInstall ∨ override.action = .forceDownload ∨
      override.action = .emergencyApprove

variable (js env input) in
/-- The policy lets the update be installed now. -/
structure PolicyAllows (update : PatchDecisionUpdate) : Prop where
  not_blocked : (ruleOf js input update).approval ≠ .blocked
  approved : (ruleOf js input update).approval = .auto ∨
    ∃ override ∈ updateOverrides js env input update, override.action = .approve
  eligible : (nowMs js env input).getTime.lt (eligibleMs js env input update) = false ∨
    forceDeadlineReached js env input update = true
  window : windowOpen js env input .install = true ∨ forceDeadlineReached js env input update = true

variable (js env input) in
/-- The conditions on the update itself under which it may be installed. -/
structure UpdateAuthorized (update : PatchDecisionUpdate) : Prop where
  not_installed : lifecycleOf update ≠ "installed"
  not_blocked : ∀ override ∈ updateOverrides js env input update, override.action ≠ .block
  not_failed : lifecycleOf update = "failed" → ForceOrEmergency js env input update
  allowed : ForceOrEmergency js env input update ∨ PolicyAllows js env input update

variable {update : PatchDecisionUpdate}

theorem exists_of_overrideOf {type : PatchOverrideAction}
    (h : (overrideOf js env input update type).isSome = true) :
    ∃ override ∈ updateOverrides js env input update, override.action = type := by
  obtain ⟨override, hfound⟩ := Option.isSome_iff_exists.mp h
  exact ⟨override, List.mem_of_find?_eq_some hfound, by simpa using List.find?_some hfound⟩

theorem overrideOf_isSome {override : PatchDecisionOverride}
    (h : override ∈ updateOverrides js env input update) :
    (overrideOf js env input update override.action).isSome = true := by
  rw [overrideOf, List.find?_isSome]
  exact ⟨override, h, by simp⟩

theorem forcedByOverride_iff :
    forcedByOverride js env input update = true ↔ ForceOrEmergency js env input update := by
  simp only [forcedByOverride, forceOf, Option.isSome_or, Bool.or_eq_true]
  constructor
  · rintro ((hfound | hfound) | hfound) <;>
      obtain ⟨override, hmem, haction⟩ := exists_of_overrideOf hfound
    · exact ⟨override, hmem, .inl haction⟩
    · exact ⟨override, hmem, .inr (.inl haction)⟩
    · exact ⟨override, hmem, .inr (.inr haction)⟩
  · rintro ⟨override, hmem, haction⟩
    have hfound := overrideOf_isSome hmem
    rcases haction with haction | haction | haction <;> rw [haction] at hfound
    · exact .inl (.inl hfound)
    · exact .inl (.inr hfound)
    · exact .inr hfound

/-- An override for the whole device is among the overrides of each update, so
a manual install of the device forces all of them. -/
theorem forceOf_isSome_of_hasManualInstallOnly (h : hasManualInstallOnly js env input = true)
    (update : PatchDecisionUpdate) : (forceOf js env input update).isSome = true := by
  simp only [hasManualInstallOnly, Bool.and_eq_true, List.any_eq_true, Bool.or_eq_true,
    decide_eq_true_eq] at h
  obtain ⟨-, override, hactive, hforce⟩ := h
  have hfound := overrideOf_isSome (mem_matchingOverrides_of_none js hactive
    (some (update, classifyPatchCategory js update)))
  unfold forceOf
  rcases hforce with hforce | hforce <;> rw [hforce] at hfound <;> simp [Option.isSome_or, hfound]

variable {step : UpdateStep}

/-- What the policy can decide: a blocked or deferred action for the update, or
its installation when the policy or an override allows it. -/
theorem decideByPolicy_cases (h : decideByPolicy js env input update = some step) :
    (∃ type reason options, step = .push type reason options ∧ (type = .blocked ∨ type = .defer) ∧
      options.updateKeys = [update.updateKey]) ∨
    (step = .install ∧
      (ForceOrEmergency js env input update ∨ PolicyAllows js env input update)) := by
  unfold decideByPolicy at h
  dsimp only at h
  split_ifs at h with hblocked heligible hmanual hskip hinstall
  · cases h
    exact .inl ⟨_, _, _, rfl, .inl rfl, rfl⟩
  · obtain ⟨eligible, -, h⟩ := Option.bind_eq_some_iff.mp h
    obtain ⟨deadline, -, h⟩ := Option.bind_eq_some_iff.mp h
    cases h
    exact .inl ⟨_, _, _, rfl, .inr rfl, rfl⟩
  · cases h
    exact .inl ⟨_, _, _, rfl, .inl rfl, rfl⟩
  · simp only [Bool.and_eq_true] at hskip
    have hforce := forceOf_isSome_of_hasManualInstallOnly hskip.1 update
    rw [Option.isNone_iff_eq_none] at hskip
    rw [hskip.2] at hforce
    cases hforce
  · cases h
    refine .inr ⟨rfl, ?_⟩
    by_cases hforced : forcedByOverride js env input update = true
    · exact .inl (forcedByOverride_iff.mp hforced)
    · simp only [Bool.not_eq_true] at hforced
      simp only [hforced, Bool.not_false, Bool.true_and, Bool.and_eq_true, decide_eq_true_eq,
        Bool.not_eq_true', not_and, Bool.not_eq_false, Bool.false_or, Bool.or_eq_true]
        at hblocked heligible hmanual hinstall
      refine .inr ⟨hblocked, ?_, ?_, hinstall.symm⟩
      · cases happroval : (ruleOf js input update).approval with
        | auto => exact .inl rfl
        | blocked => exact absurd happroval hblocked
        | manual =>
          have happrove := hmanual happroval
          rw [Bool.not_eq_true, Option.isNone_eq_false_iff] at happrove
          exact .inr (exists_of_overrideOf happrove)
      · cases hlater : (nowMs js env input).getTime.lt (eligibleMs js env input update) with
        | false => exact .inl rfl
        | true => exact .inr (heligible hlater)
  · obtain ⟨deadline, -, h⟩ := Option.bind_eq_some_iff.mp h
    cases h
    exact .inl ⟨_, _, _, rfl, .inr rfl, rfl⟩

/-- What a turn of the loop can do. -/
theorem evaluateUpdate_cases (h : evaluateUpdate js env input update = some step) :
    (step = .skip ∧ isPending js env input update = false) ∨
    (∃ type reason options, step = .push type reason options ∧
      isPending js env input update = true ∧ (type = .blocked ∨ type = .defer) ∧
      options.updateKeys = [update.updateKey]) ∨
    (step = .install ∧ isPending js env input update = true ∧
      UpdateAuthorized js env input update) := by
  unfold evaluateUpdate at h
  dsimp only at h
  split_ifs at h with hsettled hfailed
  · cases h
    refine .inl ⟨rfl, ?_⟩
    simp only [Bool.or_eq_true, decide_eq_true_eq, Bool.and_eq_true, Bool.not_eq_true'] at hsettled
    rcases hsettled with hinstalled | ⟨hmember, hsuperseded⟩
    · simp [isPending, hinstalled]
    · simp [isPending, hmember, hsuperseded]
  · cases h
    simp only [Bool.and_eq_true, decide_eq_true_eq, Bool.not_eq_true'] at hfailed
    exact .inl ⟨rfl, by simp [isPending, hfailed.1, hfailed.2]⟩
  · simp only [Bool.or_eq_true, decide_eq_true_eq, Bool.and_eq_true, Bool.not_eq_true', not_or,
      not_and, Bool.not_eq_false, Bool.not_eq_true] at hsettled hfailed
    have hpending : isPending js env input update = true := by
      simp only [isPending, Bool.and_eq_true, Bool.or_eq_true, decide_eq_true_eq,
        Bool.not_eq_true', ne_eq]
      refine ⟨⟨hsettled.1, ?_⟩, ?_⟩
      · cases hmember : downloadedTransactionMember update with
        | true => exact .inl rfl
        | false => exact .inr (hsettled.2 hmember)
      · by_cases hlast : lifecycleOf update = "failed"
        · exact .inr (hfailed hlast)
        · exact .inl hlast
    cases hblock : overrideOf js env input update .block with
    | some block =>
      rw [hblock] at h
      cases h
      exact .inr (.inl ⟨_, _, _, rfl, hpending, .inl rfl, rfl⟩)
    | none =>
      rw [hblock] at h
      cases hdefer : activeDefer js env input update with
      | some defer =>
        rw [hdefer] at h
        cases h
        exact .inr (.inl ⟨_, _, _, rfl, hpending, .inr rfl, rfl⟩)
      | none =>
        rw [hdefer] at h
        have hnotBlocked : ∀ override ∈ updateOverrides js env input update,
            override.action ≠ .block := by
          intro override hmem haction
          have hfound := overrideOf_isSome hmem
          rw [haction, hblock] at hfound
          cases hfound
        rcases decideByPolicy_cases h with ⟨type, reason, options, hstep, htype, hoptions⟩ |
          ⟨hstep, hallowed⟩
        · exact .inr (.inl ⟨type, reason, options, hstep, hpending, htype, hoptions⟩)
        · exact .inr (.inr ⟨hstep, hpending, hsettled.1, hnotBlocked,
            fun hlast => forcedByOverride_iff.mp (hfailed hlast), hallowed⟩)

/-! ## The loop -/

variable (js env input) in
/-- What the turn of an update pushes. -/
def turnReport (update : PatchDecisionUpdate) : Option Report :=
  match evaluateUpdate js env input update with
  | some (.push type reason options) => some ⟨type, options.updateKeys, reason⟩
  | _ => none

variable (js env input) in
/-- Whether the turn of an update adds its key to the install keys. -/
def selects (update : PatchDecisionUpdate) : Bool :=
  match evaluateUpdate js env input update with
  | some .install => true
  | _ => false

theorem turnReport_eq_some {report : Report} (h : turnReport js env input update = some report) :
    ∃ type reason options, evaluateUpdate js env input update = some (.push type reason options) ∧
      report = ⟨type, [update.updateKey], reason⟩ ∧ (type = .blocked ∨ type = .defer) := by
  unfold turnReport at h
  split at h
  next type reason options hstep =>
    rcases evaluateUpdate_cases hstep with ⟨hskip, -⟩ | ⟨_, _, _, hpush, -, htype, hkeys⟩ |
      ⟨hinstall, -⟩
    · cases hskip
    · cases hpush
      cases h
      exact ⟨type, reason, options, hstep, by rw [hkeys], htype⟩
    · cases hinstall
  next => cases h

variable {state final : LoopState} {updates : List PatchDecisionUpdate}

theorem evaluateUpdates_reports (h : evaluateUpdates js env input updates state = some final) :
    (∀ update ∈ updates, ∃ step, evaluateUpdate js env input update = some step) ∧
      reports final.actions
        = reports state.actions ++ updates.filterMap (turnReport js env input) ∧
      final.installKeys = state.installKeys
        ++ (updates.filter (selects js env input)).map (·.updateKey) := by
  induction updates generalizing state with
  | nil =>
    cases h
    simp
  | cons update updates ih =>
    obtain ⟨step, hstep, h⟩ := Option.bind_eq_some_iff.mp h
    obtain ⟨hsteps, hactions, hkeys⟩ := ih h
    refine ⟨List.forall_mem_cons.mpr ⟨⟨step, hstep⟩, hsteps⟩, ?_⟩
    rw [hactions, hkeys]
    cases step with
    | skip => simp [turnReport, selects, hstep, LoopState.apply]
    | push type reason options =>
      simp only [turnReport, selects, hstep, LoopState.apply, reports_push, List.filterMap_cons,
        List.filter_cons, List.append_assoc, List.singleton_append]
      simp
    | install => simp [turnReport, selects, hstep, LoopState.apply]

theorem naming_turns (hkeys : (updates.map (·.updateKey)).Nodup) (hmem : update ∈ updates) :
    naming update.updateKey (updates.filterMap (turnReport js env input))
      = (turnReport js env input update).toList := by
  have hown : naming update.updateKey (updates.filterMap (turnReport js env input))
      = (updates.filter (·.updateKey = update.updateKey)).filterMap (turnReport js env input) := by
    rw [naming, List.filter_filterMap, List.filterMap_filter]
    congr 1
    funext other
    cases hreport : turnReport js env input other with
    | none => simp
    | some report =>
      obtain ⟨_, _, _, -, rfl, -⟩ := turnReport_eq_some hreport
      simp [Option.filter_some, eq_comm]
  rw [hown, filter_key_eq hkeys hmem]
  cases hreport : turnReport js env input update <;> simp [hreport]

theorem mem_selectedKeys (hkeys : (updates.map (·.updateKey)).Nodup) (hmem : update ∈ updates) :
    update.updateKey ∈ (updates.filter (selects js env input)).map (·.updateKey) ↔
      selects js env input update = true := by
  constructor
  · intro hkey
    obtain ⟨other, hother, heq⟩ := List.mem_map.mp hkey
    obtain ⟨hother, hselects⟩ := List.mem_filter.mp hother
    exact List.inj_on_of_nodup_map hkeys hother hmem heq ▸ hselects
  · exact fun hselects => List.mem_map_of_mem (List.mem_filter.mpr ⟨hmem, hselects⟩)

/-! ## One macOS version -/

theorem foldl_setByKey {selected : List PatchDecisionUpdate}
    (hkeys : (updates.map (·.updateKey)).Nodup)
    (hfresh : ∀ update ∈ updates, ∀ other ∈ selected, other.updateKey ≠ update.updateKey) :
    updates.foldl setByKey selected = selected ++ updates := by
  induction updates generalizing selected with
  | nil => rw [List.foldl_nil, List.append_nil]
  | cons update updates ih =>
    rw [List.map_cons, List.nodup_cons] at hkeys
    have hset : setByKey selected update = selected ++ [update] := by
      rw [setByKey, if_neg]
      simpa using hfresh update List.mem_cons_self
    rw [List.foldl_cons, hset, ih hkeys.2, List.append_assoc, List.singleton_append]
    intro later hlater other hother
    rcases List.mem_append.mp hother with hother | hother
    · exact hfresh later (List.mem_cons_of_mem _ hlater) other hother
    · rw [List.mem_singleton.mp hother]
      exact fun heq => hkeys.1 (heq ▸ List.mem_map_of_mem hlater)

variable (js) in
/-- The candidates are updates selected for installation, each once. -/
theorem osUpdateCandidates_keys (hkeys : (updates.map (·.updateKey)).Nodup)
    (installKeys : List String) :
    ((osUpdateCandidates js updates installKeys).map (·.update.updateKey)).Sublist
      ((updates.filter (·.updateKey ∈ installKeys)).map (·.updateKey)) := by
  have hselected : ((updates.filter (·.updateKey ∈ installKeys)).map (·.updateKey)).Nodup :=
    hkeys.sublist (List.filter_sublist.map _)
  rw [osUpdateCandidates, foldl_setByKey hselected (by simp), List.nil_append]
  have hsublist := (List.filter_sublist (l := (updates.filter (·.updateKey ∈ installKeys)).map
    (osUpdateCandidate js)) (p := fun candidate => candidate.major.isSome)).map (·.update.updateKey)
  rw [List.map_map] at hsublist
  exact hsublist

/-- The selection takes the keys that it blocks out of the install keys, blocks no key
twice and has one reason for all of them. -/
structure SplitsKeys (installKeys : List String) (selection : InstallSelection) : Prop where
  nodup : (selection.blocked.map (·.update.updateKey)).Nodup
  blocked : ∀ key ∈ selection.blocked.map (·.update.updateKey), key ∈ installKeys
  kept : ∀ key, key ∈ selection.installKeys ↔
    key ∈ installKeys ∧ key ∉ selection.blocked.map (·.update.updateKey)
  reason : ∃ reason, ∀ blocked ∈ selection.blocked, blocked.reason = reason

theorem splitsKeys_unchanged (installKeys : List String) :
    SplitsKeys installKeys ⟨installKeys, []⟩ where
  nodup := List.nodup_nil
  blocked := by simp
  kept := by simp
  reason := ⟨"", by simp⟩

theorem constrainMacosOsVersionInstallSelection_splitsKeys
    (hkeys : (updates.map (·.updateKey)).Nodup) (device : PatchDecisionDevice)
    (installKeys : List String) : SplitsKeys installKeys
      (constrainMacosOsVersionInstallSelection js device updates installKeys) := by
  unfold constrainMacosOsVersionInstallSelection
  dsimp only
  split_ifs with hmac hcount
  · exact splitsKeys_unchanged installKeys
  · exact splitsKeys_unchanged installKeys
  · split
    · exact splitsKeys_unchanged installKeys
    next selected _ _ =>
      have hcandidates := osUpdateCandidates_keys js hkeys installKeys
      have hblocked : (((osUpdateCandidates js updates installKeys).filter fun candidate =>
          candidate.update.updateKey ≠ selected.update.updateKey).map (·.update.updateKey)).Sublist
            ((osUpdateCandidates js updates installKeys).map (·.update.updateKey)) :=
        List.filter_sublist.map _
      constructor
      · rw [List.map_map]
        exact hkeys.sublist (hblocked.trans (hcandidates.trans (List.filter_sublist.map _)))
      · intro key hkey
        rw [List.map_map] at hkey
        obtain ⟨update, hmem, rfl⟩ := List.mem_map.mp ((hblocked.trans hcandidates).subset hkey)
        simpa using (List.mem_filter.mp hmem).2
      · intro key
        simp only [List.mem_filter, decide_eq_true_eq]
      · refine ⟨"Skipped to avoid installing multiple macOS OS-version updates in one run; "
          ++ selected.update.title ++ " was selected.", fun blocked hmem => ?_⟩
        obtain ⟨candidate, -, rfl⟩ := List.mem_map.mp hmem
        rfl

def BlockedCandidate.report (blocked : BlockedCandidate) : Report :=
  ⟨.blocked, [blocked.update.updateKey], blocked.reason⟩

theorem reports_pushBlocked (env : Environment) (blocked : List BlockedCandidate)
    (actions : List PatchActionPlanItem) :
    reports (blocked.foldl (pushBlocked env) actions)
      = reports actions ++ blocked.map (·.report) := by
  induction blocked generalizing actions with
  | nil => simp
  | cons first blocked ih =>
    rw [List.foldl_cons, ih, pushBlocked, reports_push, List.append_assoc]
    rfl

theorem naming_blocked (key : String) (blocked : List BlockedCandidate) :
    naming key (blocked.map (·.report))
      = (blocked.filter (·.update.updateKey = key)).map (·.report) := by
  rw [naming, List.filter_map]
  congr 2
  funext first
  simp [BlockedCandidate.report, eq_comm]

theorem naming_blocked_eq_nil {blocked : List BlockedCandidate}
    (hkey : key ∉ blocked.map (·.update.updateKey)) : naming key (blocked.map (·.report)) = [] := by
  rw [naming_blocked, List.filter_eq_nil_iff.mpr, List.map_nil]
  intro first hmem heq
  exact hkey (of_decide_eq_true heq ▸ List.mem_map_of_mem hmem)

/-! ## The actions without updates -/

/-- The later list has more actions, which name and install no update. -/
def SameUpdates (actions later : List PatchActionPlanItem) : Prop :=
  ∃ tail, later = actions ++ tail ∧
    ∀ item ∈ tail, item.updateKeys = [] ∧ item.action ≠ .install

theorem SameUpdates.refl (actions : List PatchActionPlanItem) : SameUpdates actions actions :=
  ⟨[], by simp⟩

theorem SameUpdates.trans {first second third : List PatchActionPlanItem}
    (h : SameUpdates first second) (h' : SameUpdates second third) : SameUpdates first third := by
  obtain ⟨tail, rfl, htail⟩ := h
  obtain ⟨tail', rfl, htail'⟩ := h'
  refine ⟨tail ++ tail', List.append_assoc .., fun item hmem => ?_⟩
  exact (List.mem_append.mp hmem).elim (htail item) (htail' item)

theorem sameUpdates_push (env : Environment) (actions : List PatchActionPlanItem)
    {type : PatchPlanActionType} (reason : String) {options : ActionOptions}
    (htype : type ≠ .install) (hkeys : options.updateKeys = []) :
    SameUpdates actions (push env actions type reason options) :=
  ⟨_, rfl, fun _ hmem => List.mem_singleton.mp hmem ▸ ⟨hkeys, htype⟩⟩

variable (env input) in
theorem nativeControlActions_sameUpdates : SameUpdates [] (nativeControlActions env input) := by
  unfold nativeControlActions
  split
  · exact sameUpdates_push env [] _ (by decide) rfl
  · exact .refl []

variable (js env input) in
theorem scanActions_sameUpdates (actions : List PatchActionPlanItem) :
    SameUpdates actions (scanActions js env input actions) := by
  unfold scanActions
  dsimp only
  split
  · exact sameUpdates_push env actions _ (by decide) rfl
  · split
    · exact sameUpdates_push env actions _ (by decide) rfl
    · exact .refl actions

variable (js env input) in
theorem rebootActions_sameUpdates (actions : List PatchActionPlanItem) :
    SameUpdates actions (rebootActions js env input actions) := by
  unfold rebootActions
  dsimp only
  split
  · split
    · exact sameUpdates_push env actions _ (by decide) rfl
    · split
      · exact sameUpdates_push env actions _ (by decide) rfl
      · exact sameUpdates_push env actions _ (by decide) rfl
  · exact .refl actions

variable (env input) in
theorem reportIfIdle_sameUpdates (actions : List PatchActionPlanItem) :
    SameUpdates actions (reportIfIdle env input actions) := by
  unfold reportIfIdle
  by_cases hidle : actions.length
      = (if supportsNativeWindowsUpdateControl input.device.os then 1 else 0)
  · rw [if_pos hidle]
    exact sameUpdates_push env actions _ (by decide) rfl
  · rw [if_neg hidle]
    exact .refl actions

/-! ## The whole list -/

section

variable (js env input)

/-- The selection of one macOS version among the updates that the loop selects. -/
def selection : InstallSelection :=
  constrainMacosOsVersionInstallSelection js input.device input.updates
    ((input.updates.filter (selects js env input)).map (·.updateKey))

def installReport : Report :=
  ⟨.install, (selection js env input).installKeys.eraseDups,
    "Install is authorized by policy or override."⟩

def installReports : List Report :=
  if (selection js env input).installKeys.isEmpty then [] else [installReport js env input]

/-- What a plan says of its updates. -/
def updateReports : List Report :=
  input.updates.filterMap (turnReport js env input)
    ++ ((selection js env input).blocked.map (·.report) ++ installReports js env input)

/-- The action that installs the keys selected by the loop. -/
def installItem (state : LoopState) (uuid : String) : PatchActionPlanItem :=
  action uuid .install "Install is authorized by policy or override."
    (installOptions js env input state)

/-- Where the plan has put an update. -/
inductive Settled (update : PatchDecisionUpdate) (named : List Report) : Prop where
  | skipped (pending : isPending js env input update = false) (none : named = [])
  | reported (report : Report) (type : report.type = .blocked ∨ report.type = .defer)
      (one : named = [report])
  | installed (report : Report) (type : report.type = .install)
      (authorized : UpdateAuthorized js env input update) (one : named = [report])

end

theorem mem_installReports {report : Report} (h : report ∈ installReports js env input) :
    report = installReport js env input := by
  unfold installReports at h
  split at h
  · cases h
  · exact List.mem_singleton.mp h

/-- The install action holds the selected keys that the macOS selection keeps,
and a blocked action each of the others. -/
theorem updateReports_settled (hkeys : (input.updates.map (·.updateKey)).Nodup)
    (hmem : update ∈ input.updates) (hstep : evaluateUpdate js env input update = some step) :
    Settled js env input update (naming update.updateKey (updateReports js env input)) := by
  have hsplit : SplitsKeys _ (selection js env input) :=
    constrainMacosOsVersionInstallSelection_splitsKeys hkeys input.device _
  have hselected : update.updateKey ∈ _ ↔ selects js env input update = true :=
    mem_selectedKeys hkeys hmem
  have hnotInstalled : update.updateKey ∉ (selection js env input).installKeys →
      naming update.updateKey (installReports js env input) = [] := by
    refine fun hkey => naming_eq_nil fun report hreport => ?_
    rw [mem_installReports hreport]
    simpa [installReport] using hkey
  have hunselected : selects js env input update = false →
      naming update.updateKey (updateReports js env input)
        = (turnReport js env input update).toList := by
    intro hselects
    rw [← Bool.not_eq_true, ← hselected] at hselects
    rw [updateReports, naming_append, naming_append, naming_turns hkeys hmem,
      naming_blocked_eq_nil fun hkey => hselects (hsplit.blocked _ hkey),
      hnotInstalled fun hkey => hselects ((hsplit.kept _).mp hkey).1, List.append_nil,
      List.append_nil]
  rcases evaluateUpdate_cases hstep with ⟨rfl, hpending⟩ |
    ⟨type, reason, options, rfl, -, htype, -⟩ | ⟨rfl, -, hauthorized⟩
  · exact .skipped hpending ((hunselected (by simp [selects, hstep])).trans
      (by simp [turnReport, hstep]))
  · exact .reported _ htype ((hunselected (by simp [selects, hstep])).trans
      (by simp [turnReport, hstep]; rfl))
  · have hkey := hselected.mpr (by simp [selects, hstep])
    rw [updateReports, naming_append, naming_append, naming_turns hkeys hmem]
    by_cases hblocked : update.updateKey ∈
        (selection js env input).blocked.map (·.update.updateKey)
    · obtain ⟨blocked, hmem', heq⟩ := List.mem_map.mp hblocked
      refine .reported blocked.report (.inl rfl) ?_
      rw [hnotInstalled fun hkept => ((hsplit.kept _).mp hkept).2 hblocked, naming_blocked, ← heq,
        filter_key_eq hsplit.nodup hmem']
      simp [turnReport, hstep]
    · have hkept := (hsplit.kept _).mpr ⟨hkey, hblocked⟩
      have hinstalls : (selection js env input).installKeys.isEmpty = false := by
        rw [List.isEmpty_eq_false_iff]
        exact List.ne_nil_of_mem hkept
      refine .installed (installReport js env input) rfl hauthorized ?_
      rw [naming_blocked_eq_nil hblocked, installReports, hinstalls]
      simp [turnReport, hstep, naming, installReport, hkept]

/-- The list of a plan that considers its updates, before and after the reboot. -/
theorem updateActions_eq_some (h : updateActions js env input = some actions) :
    ∃ state tail, actions = installActions js env input state ++ tail ∧
      (∀ item ∈ tail, item.updateKeys = [] ∧ item.action ≠ .install) ∧
      (∀ update ∈ input.updates, ∃ step, evaluateUpdate js env input update = some step) ∧
      reports state.actions = reports (scanActions js env input (nativeControlActions env input))
        ++ input.updates.filterMap (turnReport js env input) ∧
      macosInstallSelection js input state = selection js env input := by
  obtain ⟨state, hloop, rfl⟩ := Option.map_eq_some_iff.mp h
  obtain ⟨tail, hlater, htail⟩ := (rebootActions_sameUpdates js env input
    (installActions js env input state)).trans (reportIfIdle_sameUpdates env input _)
  obtain ⟨hsteps, hactions, hinstall⟩ := evaluateUpdates_reports hloop
  refine ⟨state, tail, hlater, htail, hsteps, hactions, ?_⟩
  rw [macosInstallSelection, hinstall]
  rfl

theorem updateActions_reports (h : updateActions js env input = some actions) :
    ∃ tail, reports actions = reports (scanActions js env input (nativeControlActions env input))
        ++ (updateReports js env input ++ tail) ∧ ∀ report ∈ tail, report.keys = [] := by
  obtain ⟨state, tail, rfl, htail, -, hactions, hselection⟩ := updateActions_eq_some h
  have hinstalls : reports (installActions js env input state) = reports state.actions
      ++ ((selection js env input).blocked.map (·.report) ++ installReports js env input) := by
    unfold installActions installReports
    rw [hselection]
    dsimp only
    split
    · rw [reports_pushBlocked, List.append_nil]
    · rw [reports_push, reports_pushBlocked, List.append_assoc, installOptions, hselection]
      rfl
  refine ⟨reports tail, ?_, fun report hmem => ?_⟩
  · rw [reports_append, hinstalls, hactions, updateReports]
    simp only [List.append_assoc]
  · obtain ⟨item, hitem, rfl⟩ := List.mem_map.mp hmem
    exact (htail item hitem).1

variable (js env input) in
/-- The scan is due, but its window is closed. -/
def scanDeferred : Bool :=
  !hasManualInstallOnly js env input && scanDue js env input && !windowOpen js env input .scan

def scanReport : Report := ⟨.defer, [], "Scan is due but outside the scan window."⟩

theorem mem_scanned {report : Report}
    (h : report ∈ reports (scanActions js env input (nativeControlActions env input))) :
    report.keys = [] ∧ (report.type = .applyNativeControl ∨ report.type = .scan ∨
      report = scanReport ∧ scanDeferred js env input = true) := by
  have hnative : ∀ report ∈ reports (nativeControlActions env input),
      report.keys = [] ∧ report.type = .applyNativeControl := by
    unfold nativeControlActions
    split <;> simp [reports, push, Report.of, action]
  unfold scanActions at h
  dsimp only at h
  split at h
  · rw [reports_push, List.mem_append, List.mem_singleton] at h
    rcases h with h | rfl
    · exact (hnative report h).imp_right .inl
    · exact ⟨rfl, .inr (.inl rfl)⟩
  · split at h
    next hdeferred =>
      rw [reports_push, List.mem_append, List.mem_singleton] at h
      rcases h with h | rfl
      · exact (hnative report h).imp_right .inl
      · exact ⟨rfl, .inr (.inr ⟨rfl, hdeferred⟩)⟩
    next => exact (hnative report h).imp_right .inl

/-- The list of a plan that considers its updates settles each of them. -/
theorem updateActions_settled (hkeys : (input.updates.map (·.updateKey)).Nodup)
    (h : updateActions js env input = some actions) (hmem : update ∈ input.updates) :
    Settled js env input update (reports (mentioning update.updateKey actions)) := by
  obtain ⟨-, -, -, -, hsteps, -⟩ := updateActions_eq_some h
  obtain ⟨step, hstep⟩ := hsteps update hmem
  obtain ⟨tail, hreports, htail⟩ := updateActions_reports h
  have hnone : naming update.updateKey tail = [] :=
    naming_eq_nil fun report hlast => by simp [htail report hlast]
  rw [reports_mentioning, hreports, naming_append, naming_append,
    naming_eq_nil fun report hscan => by simp [(mem_scanned hscan).1], hnone, List.nil_append,
    List.append_nil]
  exact updateReports_settled hkeys hmem hstep

/-- What a plan installs, the loop has selected. -/
theorem exists_installItem (h : updateActions js env input = some actions) (hmem : item ∈ actions)
    (hinstall : item.action = .install) :
    ∃ state index, item = installItem js env input state (env.randomUUID index) := by
  obtain ⟨state, tail, rfl, htail, -, hactions, -⟩ := updateActions_eq_some h
  have hbefore : item ∉ (macosInstallSelection js input state).blocked.foldl (pushBlocked env)
      state.actions := by
    intro hmem
    have hreport := List.mem_map_of_mem (f := Report.of) hmem
    change _ ∈ reports _ at hreport
    rw [reports_pushBlocked, hactions, List.mem_append, List.mem_append] at hreport
    have htype : (Report.of item).type = .install := hinstall
    rcases hreport with (hscan | hturn) | hblocked
    · have := (mem_scanned hscan).2
      simp_all [scanReport]
    · obtain ⟨update, -, hturn⟩ := List.mem_filterMap.mp hturn
      obtain ⟨type, _, _, -, heq, hreported⟩ := turnReport_eq_some hturn
      simp_all
    · obtain ⟨first, -, heq⟩ := List.mem_map.mp hblocked
      rw [← heq] at htype
      cases htype
  rcases List.mem_append.mp hmem with hmem | hmem
  · unfold installActions at hmem
    dsimp only at hmem
    split at hmem
    · exact absurd hmem hbefore
    · rcases List.mem_append.mp hmem with hmem | hmem
      · exact absurd hmem hbefore
      · exact ⟨state, _, List.mem_singleton.mp hmem⟩
  · exact absurd hinstall (htail item hmem).2

/-- A plan that stops before its updates names none of them. -/
theorem plannedActions_cases (h : plannedActions js env input = some actions) :
    (considersUpdates js env input = true ∧ updateActions js env input = some actions) ∨
      (considersUpdates js env input = false ∧ SameUpdates [] actions) := by
  have hnative := nativeControlActions_sameUpdates env input
  unfold plannedActions at h
  dsimp only at h
  split at h
  next hmanaged =>
    cases h
    exact .inr ⟨by simp_all [considersUpdates],
      hnative.trans (sameUpdates_push env _ _ (by decide) rfl)⟩
  next hmanaged =>
    split at h
    next hreboot =>
      cases h
      exact .inr ⟨by simp_all [considersUpdates],
        hnative.trans (sameUpdates_push env _ _ (by decide) rfl)⟩
    next hreboot =>
      split at h
      next hmaintenance =>
        cases h
        exact .inr ⟨by simp [considersUpdates, hmaintenance],
          hnative.trans (sameUpdates_push env _ _ (by decide) rfl)⟩
      next hmaintenance =>
        split at h
        next hscan =>
          cases h
          exact .inr ⟨by simp_all [considersUpdates],
            hnative.trans (scanActions_sameUpdates js env input _)⟩
        next hscan =>
          refine .inl ⟨?_, h⟩
          simp only [Bool.not_eq_true', Bool.and_eq_true, not_and, Bool.not_eq_false,
            Bool.not_eq_true] at hmanaged hreboot hmaintenance hscan
          simp only [considersUpdates, hmanaged, hreboot, hmaintenance, Bool.not_false,
            Bool.true_and, Bool.or_eq_true]
          cases hmanual : hasManualInstallOnly js env input with
          | true => exact .inl rfl
          | false => exact .inr (hscan hmanual)

/-! ## De-duplication -/

theorem uniqueFrom_sublist (seen : List String) (actions : List PatchActionPlanItem) :
    (uniqueFrom seen actions).Sublist actions := by
  induction actions generalizing seen with
  | nil => exact List.Sublist.slnil
  | cons item actions ih =>
    unfold uniqueFrom
    split
    · exact (ih seen).cons item
    · exact (ih _).cons_cons item

/-- An action stays when no action before it has its text. -/
theorem mem_uniqueFrom {seen : List String} (hmem : item ∈ actions)
    (hseen : dedupeText item ∉ seen) (hpairs : actions.Pairwise fun other later =>
      later = item → dedupeText other ≠ dedupeText later) : item ∈ uniqueFrom seen actions := by
  induction actions generalizing seen with
  | nil => cases hmem
  | cons first actions ih =>
    rw [List.pairwise_cons] at hpairs
    unfold uniqueFrom
    rcases List.mem_cons.mp hmem with rfl | hmem
    · rw [if_neg hseen]
      exact List.mem_cons_self
    · split
      · exact ih hmem hseen hpairs.2
      · have hne := hpairs.1 item hmem rfl
        exact List.mem_cons_of_mem _ (ih hmem (by simp [hseen, hne.symm]) hpairs.2)

/-! ## The texts of the reports -/

/-- The keys and the reason of a report. -/
def Report.said (report : Report) : String :=
  ",".intercalate (report.keys.insertionSort fun a b => codeUnits a ≤ codeUnits b)
    ++ "|" ++ report.reason

def Report.text (report : Report) : String := report.type.text ++ "|" ++ report.said

theorem text_of (item : PatchActionPlanItem) : (Report.of item).text = dedupeText item := by
  simp only [Report.text, Report.said, Report.of, dedupeText, String.append_assoc]

/-- The text of a report starts with its type. -/
theorem takeWhile_text (report : Report) :
    report.text.toList.takeWhile (· ≠ '|') = report.type.text.toList := by
  cases htype : report.type <;> simp [Report.text, htype, PatchPlanActionType.text]

theorem text_eq_iff {report other : Report} :
    report.text = other.text ↔ report.type = other.type ∧ report.said = other.said := by
  constructor
  · intro h
    have htext : report.type.text = other.type.text := by
      rw [← String.toList_inj, ← takeWhile_text, ← takeWhile_text, h]
    have htype : report.type = other.type := by
      revert htext
      cases report.type <;> cases other.type <;> simp [PatchPlanActionType.text]
    refine ⟨htype, ?_⟩
    rw [Report.text, Report.text, htype] at h
    exact (String.append_right_inj _).mp h
  · rintro ⟨htype, hsaid⟩
    rw [Report.text, Report.text, htype, hsaid]

end

end Talos.Decision
