import Talos.Convergence.Register
import Talos.Patch.Progress
import Talos.Transition.Run

/-!
# Patch progress converges

The action row of one operation is a register of progress events: it holds the
last event written, a terminal event is final, and the times are the reported
ones. `Tracks` is the simulation relation between the row and the register of
`Convergence`, with the log of side effects; every event and every batch keeps
it, so the order, the repetition and the grouping of deliveries do not matter.
-/

namespace Talos.Patch

open JavaScript Relational Convergence Transition
open Remediation (Timestamp SqlError Device)

/-! ## Recording a result succeeds -/

theorem elementsStorable_map_str (texts : List String) :
    Json.elementsStorable (texts.map Json.str) = texts.all Json.textStorable := by
  induction texts with
  | nil => rfl
  | cons text texts ih => simp [Json.elementsStorable, Json.storable, ih]

section Storable

variable {js : Runtime} {action status : String}

variable {projected : List UpdateProjection}

theorem projectEvidenceUpdate_storable {item : Json} {projection : UpdateProjection}
    (h : projectEvidenceUpdate js action status projected item = some projection)
    (hitem : item.storable = true) : Json.textStorable projection.updateKey = true := by
  obtain ⟨record, hrecord, hrest⟩ := Option.bind_eq_some_iff.mp h
  obtain ⟨updateKey, hkey, hprojected⟩ := Option.bind_eq_some_iff.mp hrest
  have hstorable : Json.textStorable updateKey = true := by
    refine Json.textStorable_readString hkey ?_
    intro value hvalue
    exact Json.storable_coalesce (Json.propertiesStorable_asRecord hitem hrecord) hvalue
  split_ifs at hprojected
  obtain ⟨lifecycleState, -, rfl⟩ := Option.map_eq_some_iff.mp hprojected
  exact hstorable

theorem projectEvidenceUpdates_storable {items : List Json}
    (hprojected : ∀ projection ∈ projected, Json.textStorable projection.updateKey = true)
    (hitems : ∀ item ∈ items, item.storable = true) :
    ∀ projection ∈ projectEvidenceUpdates js action status projected items,
      Json.textStorable projection.updateKey = true := by
  induction items generalizing projected with
  | nil => exact hprojected
  | cons item items ih =>
    refine ih ?_ fun other hother => hitems other (by simp [hother])
    intro projection hmem
    rcases List.mem_append.mp hmem with hold | hnew
    · exact hprojected projection hold
    · exact projectEvidenceUpdate_storable (Option.mem_toList.mp hnew) (hitems item (by simp))

/-- The keys that a result projects are storable when the result is. -/
theorem projectPatchActionResultUpdates_storable {updateKeys : List String} {evidence : Json}
    (hkeys : updateKeys.all Json.textStorable = true) (hevidence : evidence.storable = true) :
    ∀ projection ∈ (projectPatchActionResultUpdates js action status updateKeys evidence).updates,
      Json.textStorable projection.updateKey = true := by
  unfold projectPatchActionResultUpdates
  split_ifs
  · simp
  · cases listedLifecycle action status with
    | none => simp
    | some lifecycleState =>
      intro projection hmem
      obtain ⟨updateKey, hupdateKey, rfl⟩ := List.mem_map.mp hmem
      exact List.all_eq_true.mp hkeys updateKey hupdateKey
  · refine projectEvidenceUpdates_storable (by simp) ?_
    intro item hitem
    refine Json.storable_asArray ?_ hitem
    intro updates hupdates
    obtain ⟨record, hrecord, hget⟩ := Option.bind_eq_some_iff.mp hupdates
    exact Json.propertiesStorable_get? (Json.propertiesStorable_asRecord hevidence hrecord) hget

end Storable

variable {actionType : String}

theorem textStorable_of_actionType (h : progressActionTypes.contains actionType = true) :
    Json.textStorable actionType = true := by
  have hall : ∀ text ∈ progressActionTypes, Json.textStorable text = true := by decide
  exact hall actionType (by simpa using h)

theorem textStorable_status (status : Remediation.ReportableStatus) :
    Json.textStorable status.text = true := by
  cases status with
  | running => rfl
  | terminal status => cases status <;> rfl

def recordedOptions (progress : NormalizedPatchProgress) (actionType : String) :
    PatchActionResultOptions :=
  { resultOptions progress actionType with logDecision := some false }

variable {progress : NormalizedPatchProgress}

theorem recordedOptions_storable (h : progress.storable = true)
    (htype : progressActionTypes.contains actionType = true) :
    (recordedOptions progress actionType).json.storable = true := by
  simp only [NormalizedPatchProgress.storable, Bool.and_eq_true] at h
  obtain ⟨⟨⟨⟨⟨⟨⟨horganization, hagent⟩, hoperation⟩, -⟩, -⟩, hkeys⟩, -⟩, hevidence⟩ := h
  have hstatus := textStorable_status progress.status
  have haction := textStorable_of_actionType htype
  have hnames : ∀ name ∈ ["organizationId", "agentId", "operationId", "action", "status",
      "updateKeys", "evidence", "logDecision"], Json.textStorable name = true := by decide
  simp only [List.forall_mem_cons, List.not_mem_nil, false_implies, implies_true,
    and_true] at hnames
  simp only [Json.storable] at hevidence
  simp only [recordedOptions, resultOptions, PatchActionResultOptions.json, optionalText,
    Option.map_some, Option.toList_some, List.cons_append, List.nil_append, Json.storable,
    Json.propertiesStorable, elementsStorable_map_str, horganization, hagent, hoperation, hkeys,
    hevidence, hstatus, haction, hnames, Bool.and_self]

variable {options : PatchActionResultOptions} {device : Device}

theorem updateStatesStatement_succeeds {now : Timestamp} {updateKeys : List String}
    (projection : UpdateProjection) (hkeys : updateKeys.all Json.textStorable = true)
    (hjson : options.json.storable = true) (db : PatchDatabase) :
    ∃ db', updateStatesStatement device now options updateKeys projection db = .ok db' := by
  have hlast : (Json.obj [("lastActionResult", options.json)]).storable = true := by
    simp only [Json.storable, Json.propertiesStorable, hjson]
    decide
  unfold updateStatesStatement
  simp only [hkeys, hlast, Bool.and_self, if_true]
  exact ⟨_, rfl⟩

variable (js : Runtime)

theorem resultStatements_succeed (device : Device) (clock : Clock) (h : progress.storable = true)
    (htype : progressActionTypes.contains actionType = true) :
    ∀ statement ∈ resultStatements js device clock (recordedOptions progress actionType)
      .evidenceOnly "", ∀ db, ∃ db', statement db = .ok db' := by
  have hjson := recordedOptions_storable h htype
  simp only [NormalizedPatchProgress.storable, Bool.and_eq_true] at h
  obtain ⟨⟨⟨⟨⟨⟨⟨-, -⟩, hoperation⟩, -⟩, -⟩, hkeys⟩, -⟩, hevidence⟩ := h
  intro statement hmem db
  unfold resultStatements at hmem
  rcases List.mem_append.mp hmem with hmem | hlog
  · rcases List.mem_append.mp hmem with hmem | hdisable
    · rcases List.mem_append.mp hmem with hlifecycle | haction
      · unfold lifecycleStatements at hlifecycle
        dsimp only at hlifecycle
        split_ifs at hlifecycle
        · obtain ⟨projected, hprojected, rfl⟩ := List.mem_map.mp hlifecycle
          have hkey := projectPatchActionResultUpdates_storable hkeys hevidence projected hprojected
          exact updateStatesStatement_succeeds projected (by simpa using hkey) hjson db
        · split at hlifecycle
          · cases hlifecycle
          · rw [List.mem_singleton.mp hlifecycle]
            exact updateStatesStatement_succeeds _ hkeys hjson db
      · split at haction
        · rename_i operationId hfilter
          have hsome : operationId = progress.operationId :=
            (Option.some.inj (Option.filter_eq_some_iff.mp hfilter).1).symm
          rw [List.mem_singleton.mp haction, hsome]
          unfold actionStatement
          have hall : (Json.textStorable progress.operationId &&
              Json.textStorable (recordedOptions progress actionType).status &&
              (recordedOptions progress actionType).evidence.storable) = true := by
            simp only [recordedOptions, resultOptions, hoperation, hevidence,
              textStorable_status progress.status, Bool.and_self]
          rw [if_pos hall]
          exact ⟨_, rfl⟩
        · cases haction
    · rw [List.mem_singleton.mp hdisable]
      unfold disableCompletedOneShotOverrides
      split
      · exact ⟨_, rfl⟩
      · rename_i operationId hfilter
        have hsome : operationId = progress.operationId :=
          (Option.some.inj (Option.filter_eq_some_iff.mp hfilter).1).symm
        simp only [hsome, hoperation, Bool.not_true, Bool.false_eq_true, if_false]
        split_ifs <;> exact ⟨_, rfl⟩
  · simp [recordedOptions] at hlog

/-! ## Statements that keep everything but the evidence -/

/-- An action row without its evidence. -/
def PatchAction.core (action : PatchAction) : PatchAction := { action with evidence := .null }

/-- The action rows differ at most in their evidence. -/
def SameCores (db db' : PatchDatabase) : Prop :=
  db'.actions.map PatchAction.core = db.actions.map PatchAction.core ∧
    db'.remediation = db.remediation

theorem SameCores.refl (db : PatchDatabase) : SameCores db db := ⟨rfl, rfl⟩

variable {a b c : PatchDatabase}

theorem SameCores.trans (hab : SameCores a b) (hbc : SameCores b c) : SameCores a c :=
  ⟨hbc.1.trans hab.1, hbc.2.trans hab.2⟩

variable {db' : PatchDatabase} {db : PatchDatabase}

theorem SameCores.action? (h : SameCores db db') (key : String × String × String) :
    (db'.action? key).map PatchAction.core = (db.action? key).map PatchAction.core := by
  have hfind (actions : List PatchAction) :
      (actions.find? fun action => action.key = some key).map PatchAction.core =
        (actions.map PatchAction.core).find? fun action => action.key = some key := by
    rw [List.find?_map]
    rfl
  unfold PatchDatabase.action?
  rw [hfind, hfind, h.1]

theorem KeepsActions.sameCores {statement : Statement} (h : KeepsActions statement)
    (hok : statement db = .ok db') : SameCores db db' := by
  obtain ⟨hactions, hremediation⟩ := h db db' hok
  exact ⟨by rw [hactions], hremediation⟩

theorem actionStatement_sameCores {now : Timestamp} {operationId : String}
    (h : actionStatement device now options .evidenceOnly operationId db = .ok db') :
    SameCores db db' := by
  rw [actionStatement_ok h]
  exact ⟨map_update _ _ _ _ fun _ _ => rfl, rfl⟩

theorem execute_sameCores (device : Device) (clock : Clock) (options : PatchActionResultOptions)
    (freshId : String) (db : PatchDatabase) :
    SameCores db
      (execute db (resultStatements js device clock options .evidenceOnly freshId)).1 := by
  refine execute_relation SameCores.refl (fun _ _ _ => SameCores.trans) ?_ db
  intro statement hmem db db' hok
  rcases resultStatements_cases hmem with hkeeps | ⟨operationId, -, rfl⟩
  · exact hkeeps.sameCores hok
  · exact actionStatement_sameCores hok

theorem loadDevice_isSome (db : PatchDatabase) (h : inOrganization db progress = true) :
    ∃ device, loadDevice db progress.agentId (some progress.organizationId) = some device := by
  unfold inOrganization at h
  cases hfind : db.remediation.devices.find? fun device => device.agentId = progress.agentId with
  | none => simp [hfind] at h
  | some device =>
    have hagent : device.agentId = progress.agentId := by simpa using List.find?_some hfind
    have horganization : device.organizationId = progress.organizationId := by
      simpa [hfind] using h
    refine Option.isSome_iff_exists.mp (List.find?_isSome.mpr
      ⟨device, List.mem_of_find?_eq_some hfind, ?_⟩)
    by_cases hempty : progress.organizationId = "" <;>
      simp [Option.filter, hagent, horganization, hempty]

/-- Recording the result of a storable event succeeds and keeps the row. -/
theorem terminalEffects_ok (clock : Clock) (hstorable : progress.storable = true)
    (hscope : inOrganization db progress = true)
    (htype : progressActionTypes.contains actionType = true) :
    ∃ db', terminalEffects js db clock progress actionType =
        .ok (db', ⟨progress, recordsResult progress actionType⟩) ∧ SameCores db db' := by
  have hcleaned : SameCores db (disableOperationOverrides db progress) := ⟨rfl, rfl⟩
  unfold terminalEffects
  cases hrecords : recordsResult progress actionType with
  | false => exact ⟨_, rfl, hcleaned⟩
  | true =>
    obtain ⟨device, hdevice⟩ := loadDevice_isSome (disableOperationOverrides db progress) hscope
    have hnone := execute_error_eq_none (P := fun _ => True) (fun statement hmem db _ => by
        obtain ⟨db', hok⟩ :=
          resultStatements_succeed js device clock hstorable htype statement hmem db
        exact ⟨db', hok, trivial⟩)
      (s := disableOperationOverrides db progress) trivial
    have hsame := execute_sameCores js device clock (recordedOptions progress actionType) ""
      (disableOperationOverrides db progress)
    refine ⟨_, ?_, hcleaned.trans hsame⟩
    have htransaction := transaction_of_error_eq_none hnone
    simp only [if_true, recordPatchActionResultInTransaction, resultOptions,
      hdevice] at htransaction ⊢
    simp only [recordedOptions, resultOptions] at htransaction
    rw [htransaction]
    rfl

/-! ## The row as a register -/

/-- What the row says when the register holds an event. Before any event there
is no row, or a queued one without times. -/
def Holds (row? : Option PatchAction) : Option NormalizedPatchProgress → Prop
  | none => ∀ row, row? = some row →
      row.status = "queued" ∧ row.reportedAt = none ∧ row.finishedAt = none
  | some event => ∃ row, row? = some row ∧ row.status = event.status.text ∧
      row.phase = some event.phase ∧ row.reportedAt = some event.reportedAt ∧
      row.finishedAt = if event.finished then some event.reportedAt else none

/-- The register accepts an event. -/
def takes (held : Option NormalizedPatchProgress) (event : NormalizedPatchProgress) : Bool :=
  accepts NormalizedPatchProgress.reportedAt NormalizedPatchProgress.finished held event

theorem not_isTerminalStatus_queued : isTerminalStatus "queued" = false := by decide

variable {row? : Option PatchAction}

theorem classify_eq_apply_iff {held : Option NormalizedPatchProgress} (h : Holds row? held)
    (progress : NormalizedPatchProgress) :
    classifyPatchProgressTransition row? progress = .apply ↔ takes held progress = true := by
  cases held with
  | none =>
    cases row? with
    | none => simp [classifyPatchProgressTransition, takes, accepts]
    | some row =>
      obtain ⟨hstatus, hreported, -⟩ := h row rfl
      simp [classifyPatchProgressTransition, takes, accepts, hstatus, hreported,
        not_isTerminalStatus_queued]
  | some last =>
    obtain ⟨row, rfl, hstatus, -, hreported, -⟩ := h
    cases hfinished : last.finished with
    | true =>
      have hterminal : isTerminalStatus row.status = true := by rw [hstatus]; exact hfinished
      rw [takes, not_accepts_of_final _ hfinished]
      simp only [classifyPatchProgressTransition, hterminal, if_true]
      split_ifs <;> simp
    | false =>
      have hterminal : isTerminalStatus row.status = false := by rw [hstatus]; exact hfinished
      simp [classifyPatchProgressTransition, hterminal, takes, accepts, hfinished, hreported]

variable {row : PatchAction}

theorem progressOverwrites_of_classify
    (h : classifyPatchProgressTransition (some row) progress = .apply) :
    progressOverwrites progress row = true := by
  unfold classifyPatchProgressTransition at h
  dsimp only at h
  split_ifs at h with hterminal hsame hstale
  cases hreported : row.reportedAt with
  | none => simp [progressOverwrites, hterminal, hreported]
  | some reportedAt =>
    simp only [hreported, Option.any_some, decide_eq_true_eq, not_lt] at hstale
    simp [progressOverwrites, hterminal, hreported, hstale]

theorem inferPatchProgressActionType_mem (eventType : Option String) (phase status : String)
    (summary : Option Record) (existing : Option String) : progressActionTypes.contains
      (inferPatchProgressActionType js eventType phase status summary existing) = true := by
  unfold inferPatchProgressActionType
  split
  · rename_i found hfound
    exact (Option.filter_eq_some_iff.mp hfound).2
  · dsimp only
    split_ifs <;> decide

theorem action?_insertAction (h : db.insertAction row = .ok db') (key : String × String × String) :
    db'.action? key = (db.action? key).or (if row.key = some key then some row else none) := by
  rw [PatchDatabase.action?, (PatchDatabase.insertAction_ok h).1, List.find?_append]
  congr 1
  simp [List.find?_singleton]

theorem insertAction_of_none (h : db.action? progress.key = none) (actionType : String) :
    ∃ db', db.insertAction (progressValues progress actionType) = .ok db' := by
  have hfree : taken PatchAction.key db.actions (progressValues progress actionType) = false := by
    have hnone := List.find?_eq_none.mp h
    simp only [taken, PatchAction.key, progressValues, Option.isSome_some, Bool.true_and,
      List.any_eq_false] at hnone ⊢
    exact hnone
  unfold PatchDatabase.insertAction
  rw [dif_pos hfree]
  exact ⟨_, rfl⟩

/-- The row that the upsert of an accepted event leaves. -/
def upsertedRow (row? : Option PatchAction) (progress : NormalizedPatchProgress)
    (actionType : String) : PatchAction :=
  match row? with
  | none => progressValues progress actionType
  | some row => (progressWrite progress actionType).apply row

theorem upsertProgress_ok (actionType : String) (hstorable : progress.storable = true)
    (happly : classifyPatchProgressTransition (db.action? progress.key) progress = .apply) :
    ∃ db', upsertProgress db progress actionType = .ok (db', 1) ∧ db'.remediation = db.remediation ∧
      db'.action? progress.key =
        some (upsertedRow (db.action? progress.key) progress actionType) := by
  unfold upsertProgress
  simp only [hstorable, Bool.not_true, Bool.false_eq_true, if_false]
  cases hfind : db.action? progress.key with
  | none =>
    obtain ⟨db', hinsert⟩ := insertAction_of_none hfind actionType
    refine ⟨db', by simp [hinsert], (PatchDatabase.insertAction_ok hinsert).2, ?_⟩
    rw [action?_insertAction hinsert, hfind]
    simp [upsertedRow, progressValues, PatchAction.key, NormalizedPatchProgress.key]
  | some row =>
    rw [hfind] at happly
    have hkey := (PatchDatabase.key_of_action? hfind).2
    simp only [progressOverwrites_of_classify happly, if_true]
    refine ⟨_, rfl, rfl, ?_⟩
    rw [PatchDatabase.action?_updateActions, hfind]
    simp [upsertedRow, hkey]

theorem holds_upserted {held : Option NormalizedPatchProgress} (actionType : String)
    (h : Holds row? held) (htakes : takes held progress = true) :
    Holds (some (upsertedRow row? progress actionType)) (some progress) := by
  cases row? with
  | none => exact ⟨_, rfl, rfl, rfl, rfl, rfl⟩
  | some row =>
    have hfinishedAt : row.finishedAt = none := by
      cases held with
      | none => exact (h row rfl).2.2
      | some last =>
        obtain ⟨stored, hstored, -, -, -, hfinishedAt⟩ := h
        cases hstored
        have hopen : last.finished = false := by
          by_contra hfinal
          rw [takes, not_accepts_of_final _ (by simpa using hfinal)] at htakes
          cases htakes
        rw [hfinishedAt, hopen]
        rfl
    refine ⟨_, rfl, rfl, rfl, rfl, ?_⟩
    simp only [upsertedRow, progressWrite, hfinishedAt]
    split_ifs <;> rfl

/-- The simulation: the row holds what the register holds, the side effects were
those of the final events that the register accepted, and a result was recorded
according to the stored action type. -/
structure Tracks (db : PatchDatabase) (key : String × String × String)
    (effects : List TerminalEffects) (held : Option NormalizedPatchProgress)
    (taken_ : List NormalizedPatchProgress) : Prop where
  scope : ∃ device ∈ db.remediation.devices, device.agentId = key.2.1 ∧
    device.organizationId = key.1
  holds : Holds (db.action? key) held
  effects_eq : effects.map TerminalEffects.event =
    taken_.filter NormalizedPatchProgress.finished
  recorded : ∀ effect ∈ effects, ∃ row, db.action? key = some row ∧
    progressActionTypes.contains row.actionType = true ∧
    effect.recorded = recordsResult effect.event row.actionType

variable {taken_ : List NormalizedPatchProgress}

theorem Tracks.inScope {key : String × String × String} {effects : List TerminalEffects}
    {held : Option NormalizedPatchProgress} (h : Tracks db key effects held taken_)
    (hkey : progress.key = key) : inOrganization db progress = true := by
  obtain ⟨device, hdevice, hagent, horganization⟩ := h.scope
  rw [← hkey] at hagent horganization
  have hdeviceKey : Device.key device = some progress.agentId := congrArg some hagent
  have hfind := db.remediation.devices_key.find?_eq_some hdevice hdeviceKey
  simp only [Device.key, Option.some.injEq] at hfind
  simp only [inOrganization, hfind, Option.any_some, decide_eq_true_eq]
  exact horganization

theorem core_actionType {a b : PatchAction} (h : a.core = b.core) :
    a.actionType = b.actionType := by
  simp only [PatchAction.core, PatchAction.mk.injEq] at h
  exact h.2.2.2.1

variable {row?' : Option PatchAction}

theorem exists_of_core (h : row?'.map PatchAction.core = row?.map PatchAction.core)
    (hrow : row? = some row) : ∃ row', row?' = some row' ∧ row'.core = row.core := by
  rw [hrow, Option.map_some] at h
  exact Option.map_eq_some_iff.mp h

theorem Holds.of_core (h : row?'.map PatchAction.core = row?.map PatchAction.core)
    {held : Option NormalizedPatchProgress} (hholds : Holds row? held) : Holds row?' held := by
  cases held with
  | none =>
    intro row hrow
    obtain ⟨old, hold, hcore⟩ := exists_of_core h.symm hrow
    have hfields := hholds old hold
    simp only [PatchAction.core, PatchAction.mk.injEq] at hcore
    simpa only [hcore] using hfields
  | some event =>
    obtain ⟨row, hrow, hfields⟩ := hholds
    obtain ⟨row', hrow', hcore⟩ := exists_of_core h hrow
    simp only [PatchAction.core, PatchAction.mk.injEq] at hcore
    exact ⟨row', hrow', by simpa only [hcore] using hfields⟩

section Step

variable {db : PatchDatabase} {key : String × String × String} {effects : List TerminalEffects}
  {held : Option NormalizedPatchProgress} {taken_ : List NormalizedPatchProgress}
  {progress : NormalizedPatchProgress}

theorem upsertedRow_actionType (js : Runtime) (row? : Option PatchAction)
    (progress : NormalizedPatchProgress) :
    (upsertedRow row? progress (progressActionType js row? progress)).actionType =
      progressActionType js row? progress := by
  cases row? with
  | none => rfl
  | some row =>
    simp only [upsertedRow, progressWrite]
    split_ifs with hcontains
    · have htrim : ∀ text ∈ progressActionTypes, trim text = text := by decide
      have hrow : trim row.actionType = row.actionType := htrim _ (by simpa using hcontains)
      have hfilter : Option.filter progressActionTypes.contains
          (Option.map trim (some row.actionType)) = some row.actionType := by
        rw [Option.map_some, hrow]
        simp only [Option.filter, hcontains, if_true]
      rw [progressActionType, inferPatchProgressActionType, Option.map_some, hfilter]
    · rfl

theorem upsertedRow_actionType_of_contains
    (h : progressActionTypes.contains row.actionType = true) (progress : NormalizedPatchProgress)
    (actionType : String) :
    (upsertedRow (some row) progress actionType).actionType = row.actionType := by
  simp [upsertedRow, progressWrite, List.contains_iff_mem.mp h]

theorem Tracks.recorded_of_row (h : Tracks db key effects held taken_) {row' : PatchAction}
    (hrow' : db'.action? key = some row')
    (hcore : row'.core = (upsertedRow (db.action? key) progress actionType).core) :
    ∀ effect ∈ effects, ∃ row, db'.action? key = some row ∧
      progressActionTypes.contains row.actionType = true ∧
      effect.recorded = recordsResult effect.event row.actionType := by
  intro effect heffect
  obtain ⟨row, hrow, hcontains, hrecorded⟩ := h.recorded effect heffect
  have htype : row'.actionType = row.actionType := by
    rw [hrow] at hcore
    rw [← upsertedRow_actionType_of_contains hcontains progress actionType]
    exact core_actionType hcore
  exact ⟨row', hrow', by rw [htype, hcontains], by rw [htype, hrecorded]⟩

/-- One event: the loop of a batch goes on and the simulation is kept. -/
theorem Tracks.step (js : Runtime) (clock : Clock) (h : Tracks db key effects held taken_)
    (hkey : progress.key = key) (hstorable : progress.storable = true) :
    ∃ db' result, projectPatchProgress js clock db progress = .ok (db', result) ∧
      Tracks db' key (effects ++ result.effects)
        (receive NormalizedPatchProgress.reportedAt NormalizedPatchProgress.finished held progress)
        (taken_ ++ if takes held progress then [progress] else []) := by
  have htexts : (Json.textStorable progress.organizationId &&
      Json.textStorable progress.operationId) = true := by
    simp only [NormalizedPatchProgress.storable, Bool.and_eq_true] at hstorable ⊢
    exact ⟨hstorable.1.1.1.1.1.1.1, hstorable.1.1.1.1.1.2⟩
  subst hkey
  unfold projectPatchProgress
  simp only [htexts, Bool.not_true, Bool.false_eq_true, if_false]
  cases htakes : takes held progress with
  | false =>
    have hignored :
        classifyPatchProgressTransition (db.action? progress.key) progress ≠ .apply := by
      intro happly
      rw [(classify_eq_apply_iff h.holds progress).mp happly] at htakes
      cases htakes
    refine ⟨db, ⟨0, 1, []⟩, by simp [hignored], ?_⟩
    rw [receive_of_not_accepts htakes]
    simpa using h
  | true =>
    have happly := (classify_eq_apply_iff h.holds progress).mpr htakes
    have htype : progressActionTypes.contains
        (progressActionType js (db.action? progress.key) progress) = true :=
      inferPatchProgressActionType_mem _ _ _ _ _ _
    obtain ⟨db', hupsert, hremediation, hrow⟩ := upsertProgress_ok
      (progressActionType js (db.action? progress.key) progress) hstorable happly
    have hholds := holds_upserted (progressActionType js (db.action? progress.key) progress)
      h.holds htakes
    have hscope : ∃ device ∈ db'.remediation.devices, device.agentId = progress.key.2.1 ∧
        device.organizationId = progress.key.1 := by
      rw [hremediation]
      exact h.scope
    simp only [happly, ne_eq, not_true_eq_false, if_false, hupsert]
    rw [receive_of_accepts htakes]
    cases hfinished : progress.finished with
    | false =>
      refine ⟨db', ⟨1, 0, []⟩, by simp, hscope, hrow ▸ hholds, ?_, ?_⟩
      · simp [h.effects_eq, hfinished]
      · rw [List.append_nil]
        exact h.recorded_of_row hrow rfl
    | true =>
      have hinOrganization : inOrganization db' progress = true := by
        rw [inOrganization, hremediation]
        exact h.inScope rfl
      obtain ⟨settled, heffects, hsame⟩ :=
        terminalEffects_ok js clock hstorable hinOrganization htype
      obtain ⟨row', hrow', hcore⟩ := exists_of_core (hsame.action? progress.key) hrow
      simp only [Bool.not_true, Bool.false_eq_true, if_false, heffects]
      refine ⟨settled, _, rfl, ?_, ?_, ?_, ?_⟩
      · rw [hsame.2]
        exact hscope
      · exact Holds.of_core (hsame.action? progress.key) (hrow ▸ hholds)
      · simp [h.effects_eq, hfinished]
      · intro effect heffect
        rcases List.mem_append.mp heffect with hold | hnew
        · exact h.recorded_of_row hrow' hcore effect hold
        · rw [List.mem_singleton.mp hnew]
          have hrowType : row'.actionType =
              progressActionType js (db.action? progress.key) progress := by
            rw [core_actionType hcore, upsertedRow_actionType]
          exact ⟨row', hrow', by rw [hrowType, htype], by rw [hrowType]⟩

theorem Tracks.items (js : Runtime) (clock : Clock) {items : List NormalizedPatchProgress}
    (h : Tracks db key effects held taken_) (result : BatchResult) {before : List TerminalEffects}
    (heffects : effects = before ++ result.effects)
    (hkeys : ∀ progress ∈ items, progress.key = key)
    (hstorable : ∀ progress ∈ items, progress.storable = true) :
    ∃ db' result', projectPatchProgressItems js clock db result items = .ok (db', result') ∧
      Tracks db' key (before ++ result'.effects)
        (receiveAll NormalizedPatchProgress.reportedAt NormalizedPatchProgress.finished held items)
        (taken_ ++ accepted NormalizedPatchProgress.reportedAt NormalizedPatchProgress.finished held
          items) := by
  induction items generalizing db effects held taken_ result with
  | nil =>
    refine ⟨db, result, rfl, ?_⟩
    rw [accepted, List.append_nil, ← heffects]
    exact h
  | cons progress items ih =>
    obtain ⟨db', ⟨updated, ignored, new⟩, hstep, htracks⟩ :=
      h.step js clock (hkeys progress (by simp)) (hstorable progress (by simp))
    unfold projectPatchProgressItems
    simp only [hstep]
    rw [accepted, ← List.append_assoc]
    refine ih htracks _ ?_ (fun other hother => hkeys other (by simp [hother]))
      (fun other hother => hstorable other (by simp [hother]))
    rw [heffects, List.append_assoc]

end Step

/-! ## Batches and runs -/

structure Batch where
  clock : Clock
  items : List NormalizedPatchProgress

structure ProgressState where
  db : PatchDatabase
  effects : List TerminalEffects

def ProgressState.step (state : ProgressState) (batch : Batch) : ProgressState :=
  match projectPatchProgressBatch js state.db batch.clock batch.items with
  | .ok (db', result) => ⟨db', state.effects ++ result.effects⟩
  | .error _ => state

theorem Tracks.batch {state : ProgressState} {key : String × String × String}
    {held : Option NormalizedPatchProgress} (h : Tracks state.db key state.effects held taken_)
    (batch : Batch) (hkeys : ∀ progress ∈ batch.items, progress.key = key)
    (hstorable : ∀ progress ∈ batch.items, progress.storable = true) :
    Tracks (state.step js batch).db key (state.step js batch).effects
      (receiveAll NormalizedPatchProgress.reportedAt NormalizedPatchProgress.finished held
        batch.items)
      (taken_ ++ accepted NormalizedPatchProgress.reportedAt NormalizedPatchProgress.finished held
        batch.items) := by
  cases hitems : batch.items with
  | nil =>
    have hsame : state.step js batch = state := by
      simp [ProgressState.step, projectPatchProgressBatch, hitems]
    rw [hsame, accepted, List.append_nil]
    exact h
  | cons first items =>
    rw [← hitems]
    have htexts : batch.items.all (fun progress => Json.textStorable progress.agentId) = true := by
      rw [List.all_eq_true]
      intro progress hmem
      have hprogress := hstorable progress hmem
      simp only [NormalizedPatchProgress.storable, Bool.and_eq_true] at hprogress
      exact hprogress.1.1.1.1.1.1.2
    have hscope :
        batch.items.findIdx? (fun progress => !inOrganization state.db progress) = none := by
      rw [List.findIdx?_eq_none_iff]
      intro progress hmem
      rw [h.inScope (hkeys progress hmem)]
      rfl
    obtain ⟨db', result', hrun, htracks⟩ := h.items js batch.clock ⟨0, 0, []⟩
      (List.append_nil state.effects).symm hkeys hstorable
    have hbatch : projectPatchProgressBatch js state.db batch.clock batch.items =
        .ok (db', result') := by
      simp only [projectPatchProgressBatch, htexts, hscope, hrun, Bool.not_true, Bool.false_eq_true,
        if_false]
      simp [hitems]
    have hstep : state.step js batch = ⟨db', state.effects ++ result'.effects⟩ := by
      simp [ProgressState.step, hbatch]
    rw [hstep]
    exact htracks

def deliveredEvents (batches : List Batch) : List NormalizedPatchProgress :=
  batches.flatMap Batch.items

theorem Tracks.run {key : String × String × String} {batches : List Batch} (state : ProgressState)
    {held : Option NormalizedPatchProgress} (h : Tracks state.db key state.effects held taken_)
    (hkeys : ∀ progress ∈ deliveredEvents batches, progress.key = key)
    (hstorable : ∀ progress ∈ deliveredEvents batches, progress.storable = true) :
    Tracks (run (ProgressState.step js) state batches).db key
      (run (ProgressState.step js) state batches).effects
      (receiveAll NormalizedPatchProgress.reportedAt NormalizedPatchProgress.finished held
        (deliveredEvents batches))
      (taken_ ++ accepted NormalizedPatchProgress.reportedAt NormalizedPatchProgress.finished held
        (deliveredEvents batches)) := by
  induction batches generalizing state held taken_ with
  | nil => simpa [deliveredEvents, accepted] using h
  | cons batch batches ih =>
    have hevents : deliveredEvents (batch :: batches) = batch.items ++ deliveredEvents batches :=
      List.flatMap_cons
    rw [hevents] at hkeys hstorable ⊢
    have hbatch := h.batch js batch (fun progress hmem => hkeys progress (by simp [hmem]))
      (fun progress hmem => hstorable progress (by simp [hmem]))
    rw [run_cons, receiveAll_append, accepted_append, ← List.append_assoc]
    exact ih _ hbatch (fun progress hmem => hkeys progress (by simp [hmem]))
      (fun progress hmem => hstorable progress (by simp [hmem]))

/-! ## Times and action types along a run -/

/-- A row stays, its report time does not go back, and neither an action type of
the progress kind nor a terminal status changes. -/
structure RowAdvances (row row' : PatchAction) : Prop where
  reportedAt : ∀ time, row.reportedAt = some time → ∃ time', row'.reportedAt = some time' ∧
    time ≤ time'
  actionType : progressActionTypes.contains row.actionType = true →
    row'.actionType = row.actionType
  status : isTerminalStatus row.status = true → row'.status = row.status

def Advances (db db' : PatchDatabase) : Prop :=
  ∀ key row, db.action? key = some row → ∃ row', db'.action? key = some row' ∧ RowAdvances row row'

theorem RowAdvances.refl (row : PatchAction) : RowAdvances row row :=
  ⟨fun time h => ⟨time, h, le_refl time⟩, fun _ => rfl, fun _ => rfl⟩

theorem RowAdvances.trans {a b c : PatchAction} (hab : RowAdvances a b) (hbc : RowAdvances b c) :
    RowAdvances a c := by
  refine ⟨?_, ?_, ?_⟩
  · intro time h
    obtain ⟨middle, hmiddle, hle⟩ := hab.reportedAt time h
    obtain ⟨last, hlast, hle'⟩ := hbc.reportedAt middle hmiddle
    exact ⟨last, hlast, hle.trans hle'⟩
  · intro h
    have hmiddle := hab.actionType h
    rw [hbc.actionType (by rw [hmiddle, h]), hmiddle]
  · intro h
    have hmiddle := hab.status h
    rw [hbc.status (by rw [hmiddle, h]), hmiddle]

theorem Advances.refl (db : PatchDatabase) : Advances db db :=
  fun _ row h => ⟨row, h, RowAdvances.refl row⟩

theorem Advances.trans (hab : Advances a b) (hbc : Advances b c) : Advances a c := by
  intro key row hrow
  obtain ⟨middle, hmiddle, hfirst⟩ := hab key row hrow
  obtain ⟨last, hlast, hsecond⟩ := hbc key middle hmiddle
  exact ⟨last, hlast, hfirst.trans hsecond⟩

theorem SameCores.advances (h : SameCores db db') : Advances db db' := by
  intro key row hrow
  obtain ⟨row', hrow', hcore⟩ := exists_of_core (h.action? key) hrow
  simp only [PatchAction.core, PatchAction.mk.injEq] at hcore
  refine ⟨row', hrow', ?_, fun _ => by simp only [hcore], fun _ => by simp only [hcore]⟩
  intro time htime
  exact ⟨time, by simpa only [hcore] using htime, le_refl time⟩

theorem upsertProgress_advances {changed : ℕ}
    (h : upsertProgress db progress actionType = .ok (db', changed)) : Advances db db' := by
  unfold upsertProgress at h
  split_ifs at h
  cases hfind : db.action? progress.key with
  | none =>
    simp only [hfind] at h
    cases hinsert : db.insertAction (progressValues progress actionType) with
    | error error => simp [hinsert] at h
    | ok inserted =>
      simp only [hinsert, Except.ok.injEq, Prod.mk.injEq] at h
      rw [← h.1]
      intro key row hrow
      refine ⟨row, ?_, RowAdvances.refl row⟩
      rw [action?_insertAction hinsert, hrow]
      rfl
  | some action =>
    simp only [hfind] at h
    split_ifs at h with hoverwrites
    · cases h
      intro key row hrow
      rw [PatchDatabase.action?_updateActions, hrow, Option.map_some]
      refine ⟨_, rfl, ?_⟩
      split_ifs with htarget
      · -- the row that is written is the one that the `WHERE` clause has compared
        have hkey : key = progress.key := by
          have hrowKey := (PatchDatabase.key_of_action? hrow).2
          rw [of_decide_eq_true htarget] at hrowKey
          exact (Option.some.inj hrowKey).symm
        rw [hkey, hfind] at hrow
        cases hrow
        simp only [progressOverwrites, Bool.and_eq_true] at hoverwrites
        refine ⟨?_,
          fun hcontains => upsertedRow_actionType_of_contains hcontains progress actionType, ?_⟩
        · intro time htime
          rw [htime] at hoverwrites
          exact ⟨progress.reportedAt, rfl, by simpa using hoverwrites.2⟩
        · intro hterminal
          simp [hterminal] at hoverwrites
      · exact RowAdvances.refl row
    · cases h
      exact Advances.refl _

variable {js : Runtime} {clock : Clock}

theorem terminalEffects_sameCores {effects : TerminalEffects}
    (h : terminalEffects js db clock progress actionType = .ok (db', effects)) :
    SameCores db db' := by
  have hcleaned : SameCores db (disableOperationOverrides db progress) := ⟨rfl, rfl⟩
  unfold terminalEffects recordPatchActionResultInTransaction at h
  dsimp only at h
  split_ifs at h
  · split at h
    · cases h
    · rename_i stored hstored
      cases h
      split at hstored
      · cases hstored
      · split at hstored
        · cases hstored
        · rename_i final hfinal
          cases hstored
          rw [eq_execute_of_transaction hfinal]
          exact hcleaned.trans (execute_sameCores _ _ _ _ _ _)
  · cases h
    exact hcleaned

theorem projectPatchProgress_advances {result : BatchResult}
    (h : projectPatchProgress js clock db progress = .ok (db', result)) : Advances db db' := by
  unfold projectPatchProgress at h
  dsimp only at h
  split_ifs at h
  · cases h
    exact Advances.refl _
  · split at h
    · cases h
    · cases h
      exact Advances.refl _
    · rename_i written changed _ hupsert
      cases h
      exact upsertProgress_advances hupsert
  · split at h
    · cases h
    · cases h
      exact Advances.refl _
    · rename_i written changed _ hupsert
      split at h
      · cases h
      · rename_i settled effects heffects
        cases h
        exact (upsertProgress_advances hupsert).trans (terminalEffects_sameCores heffects).advances

theorem projectPatchProgressItems_advances {items : List NormalizedPatchProgress}
    {before result : BatchResult}
    (h : projectPatchProgressItems js clock db before items = .ok (db', result)) :
    Advances db db' := by
  induction items generalizing db before with
  | nil =>
    cases h
    exact Advances.refl _
  | cons progress items ih =>
    unfold projectPatchProgressItems at h
    cases hstep : projectPatchProgress js clock db progress with
    | error error => simp [hstep] at h
    | ok written =>
      obtain ⟨middle, updated, ignored, effects⟩ := written
      simp only [hstep] at h
      exact (projectPatchProgress_advances hstep).trans (ih h)

theorem step_advances (js : Runtime) (state : ProgressState) (batch : Batch) :
    Advances state.db (state.step js batch).db := by
  unfold ProgressState.step
  cases hbatch : projectPatchProgressBatch js state.db batch.clock batch.items with
  | error error => exact Advances.refl state.db
  | ok written =>
    obtain ⟨db', result⟩ := written
    unfold projectPatchProgressBatch at hbatch
    split_ifs at hbatch
    split at hbatch
    · cases hbatch
    · exact projectPatchProgressItems_advances hbatch

theorem run_advances (js : Runtime) (state : ProgressState) (batches : List Batch) :
    Advances state.db (run (ProgressState.step js) state batches).db :=
  run_relation (P := fun _ => True) (R := fun a b : ProgressState => Advances a.db b.db)
    (fun state => Advances.refl state.db) (fun _ _ _ => Advances.trans)
    (fun state batch _ => ⟨trivial, step_advances js state batch⟩) trivial batches

/-! ## Convergence -/

/-- What the row and the side effects look like after all deliveries: they are
those of the terminal event. -/
structure ConvergedTo (state : ProgressState) (terminal : NormalizedPatchProgress) : Prop where
  row : ∃ row, state.db.action? terminal.key = some row ∧ row.status = terminal.status.text ∧
    row.phase = some terminal.phase ∧ row.reportedAt = some terminal.reportedAt ∧
    row.finishedAt = some terminal.reportedAt ∧
    state.effects = [⟨terminal, recordsResult terminal row.actionType⟩]

/-- Deliveries of progress events in any order, repetition and grouping, of which
one is terminal and none is later: the row ends as the terminal event says, its
side effects happen once, and on the way no report time goes back and no action
type of the progress kind changes. -/
theorem progress_converges (js : Runtime) (db : PatchDatabase) (batches : List Batch)
    (terminal : NormalizedPatchProgress)
    (hdevice : ∃ device ∈ db.remediation.devices, device.agentId = terminal.agentId ∧
      device.organizationId = terminal.organizationId)
    (hstart : ∀ row, db.action? terminal.key = some row →
      row.status = "queued" ∧ row.reportedAt = none ∧ row.finishedAt = none)
    (hkeys : ∀ event ∈ deliveredEvents batches, event.key = terminal.key)
    (hstorable : ∀ event ∈ deliveredEvents batches, event.storable = true)
    (hmem : terminal ∈ deliveredEvents batches) (hterminal : terminal.finished = true)
    (honly : ∀ event ∈ deliveredEvents batches, event.finished = true → event = terminal)
    (hlatest : ∀ event ∈ deliveredEvents batches, event.reportedAt ≤ terminal.reportedAt) :
    ConvergedTo (run (ProgressState.step js) ⟨db, []⟩ batches) terminal ∧
      ∀ earlier later, earlier ++ later <+: batches →
        Advances (run (ProgressState.step js) ⟨db, []⟩ earlier).db
          (run (ProgressState.step js) ⟨db, []⟩ (earlier ++ later)).db := by
  refine ⟨?_, ?_⟩
  · have hinitial : Tracks db terminal.key [] none [] := ⟨hdevice, hstart, rfl, by simp⟩
    have hfinal := Tracks.run js ⟨db, []⟩ hinitial hkeys hstorable
    have hopen : Open NormalizedPatchProgress.reportedAt NormalizedPatchProgress.finished terminal
        none := by simp [Open]
    obtain ⟨hheld, haccepted⟩ := deliveries_converge hopen hterminal hmem honly hlatest
    rw [hheld, List.nil_append] at hfinal
    obtain ⟨row, hrow, hstatus, hphase, hreportedAt, hfinishedAt⟩ := hfinal.holds
    rw [hterminal, if_pos rfl] at hfinishedAt
    refine ⟨row, hrow, hstatus, hphase, hreportedAt, hfinishedAt, ?_⟩
    have hevents := hfinal.effects_eq
    rw [haccepted] at hevents
    obtain ⟨effect, heffects, hevent⟩ := List.map_eq_singleton_iff.mp hevents
    obtain ⟨stored, hstored, -, hrecorded⟩ := hfinal.recorded effect (by simp [heffects])
    rw [hrow] at hstored
    cases hstored
    rw [heffects, ← hevent, ← hrecorded]
  · intro earlier later _
    rw [run_append]
    exact run_advances js _ later

theorem uniqueOn_queuedDevice : UniqueOn Device.key [⟨"agent", "org", 0⟩] := by decide

def queuedDatabase (finishedAt : Option Timestamp) : PatchDatabase where
  remediation :=
    { devices := [⟨"agent", "org", 0⟩]
      decisions := []
      jobs := []
      steps := []
      nextJobId := 1
      nextStepId := 1
      devices_key := uniqueOn_queuedDevice
      jobs_key := by decide
      jobs_commandId := by decide
      jobs_dedupeKey := by decide
      jobs_lt := by decide
      steps_key := by decide }
  actions := [
    { organizationId := "org"
      agentId := "agent"
      operationId := "op"
      actionType := "install"
      status := "queued"
      phase := none
      updateKeys := .arr []
      progress := .obj []
      evidence := .obj []
      errorMessage := none
      remediationJobId := some 1
      remediationCommandId := none
      requestedBy := "user"
      reportedAt := none
      startedAt := none
      finishedAt := finishedAt }]
  overrides := []
  updateStates := []
  decisionLog := []
  actions_key := List.pairwise_singleton _ _

def progressEvent (status : Remediation.ReportableStatus) (phase : String)
    (reportedAt : Timestamp) : NormalizedPatchProgress where
  organizationId := "org"
  agentId := "agent"
  operationId := "op"
  eventType := none
  status := status
  phase := phase
  reportedAt := reportedAt
  summary := none
  error := none
  updateKeys := []
  progress := []
  evidence := []

def installingEvent : NormalizedPatchProgress := progressEvent .running "installing" 5

def completedEvent : NormalizedPatchProgress :=
  progressEvent (.terminal .completed) "finalizing" 10

def reorderedBatches : List Batch :=
  [⟨⟨11, 11⟩, [completedEvent, installingEvent]⟩, ⟨⟨12, 12⟩, [completedEvent]⟩]

theorem progress_converges_queuedDatabase :
    ConvergedTo (run (ProgressState.step Runtime.bare) ⟨queuedDatabase none, []⟩ reorderedBatches)
      completedEvent ∧
    ∀ earlier later, earlier ++ later <+: reorderedBatches →
      Advances (run (ProgressState.step Runtime.bare) ⟨queuedDatabase none, []⟩ earlier).db
        (run (ProgressState.step Runtime.bare) ⟨queuedDatabase none, []⟩ (earlier ++ later)).db :=
  progress_converges Runtime.bare (queuedDatabase none) reorderedBatches completedEvent
    ⟨_, List.mem_singleton.mpr rfl, rfl, rfl⟩
    (by rintro row ⟨⟩; exact ⟨rfl, rfl, rfl⟩)
    (by decide) (by decide) (by simp [deliveredEvents, reorderedBatches]) rfl
    (by
      intro event hmem hfinished
      simp only [deliveredEvents, reorderedBatches, List.flatMap_cons, List.flatMap_nil,
        List.append_nil, List.cons_append, List.nil_append, List.mem_cons, List.not_mem_nil,
        or_false] at hmem
      rcases hmem with rfl | rfl | rfl
      · rfl
      · exact absurd hfinished (by decide)
      · rfl)
    (by decide)

/-- A queued row without a report time that carries a finish time keeps it. -/
theorem finishedAt_kept_from_queued_row : ((queuedDatabase (some 3)).action? completedEvent.key).map
      (fun row => (row.status, row.reportedAt)) = some ("queued", none) ∧
    ((run (ProgressState.step Runtime.bare) ⟨queuedDatabase (some 3), []⟩
      [⟨⟨11, 11⟩, [completedEvent]⟩]).db.action? completedEvent.key).map
      (fun row => (row.status, row.reportedAt, row.finishedAt)) =
        some ("completed", some 10, some 3) := by
  decide

end Talos.Patch
