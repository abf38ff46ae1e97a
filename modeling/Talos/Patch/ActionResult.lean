import Mathlib.Data.List.Sort
import Talos.Patch.Database

/-!
# Recording the result of a patch action

`projectPatchActionResultUpdates` reads from the evidence, or without evidence
from the listed keys, which updates of the device change their lifecycle state.
`resultStatements` are the statements of `recordPatchActionResultWithClient` in
order: the update states, the action row, the one-shot overrides of the decision
that the operation belongs to, and the decision log.

An action-result post runs them one by one; patch progress runs them inside its
own transaction and leaves the status of the action row alone.
-/

namespace Talos.Patch

open JavaScript Relational
open Remediation (Timestamp SqlError Device)

/-- The caller's clock and the database's. -/
structure Clock where
  now : Timestamp
  databaseNow : Timestamp

def stringValue (value : Option Json) : Option String := readString value

def booleanValue : Option Json → Option Bool
  | some (.bool value) => some value
  | _ => none

def isTransactionLevelPatchFailure (evidence : Option Record) : Bool :=
  let summary := asRecord (evidence.bind (·.get? "summary"))
  (match evidence.bind (·.get? "failureScope") with
    | some (.str scope) => scope = "transaction"
    | _ => false) ||
  booleanValue (summary.bind (·.get? "transactionFailure")) = some true

inductive LifecycleState where
  | downloaded
  | installed
  | failed
deriving DecidableEq

def LifecycleState.text : LifecycleState → String
  | downloaded => "downloaded"
  | installed => "installed"
  | failed => "failed"

structure UpdateProjection where
  updateKey : String
  lifecycleState : LifecycleState
  failureMessage : Option String
  requiresReboot : Option Bool

structure ResultProjection where
  usedEvidence : Bool
  updates : List UpdateProjection

structure PatchActionResultOptions where
  organizationId : Option String
  agentId : String
  operationId : Option String
  action : String
  status : String
  updateKeys : List String
  evidence : Json
  logDecision : Option Bool

section Projection

variable (js : Runtime) (action status : String)

def entryLifecycle (record : Record) : Option LifecycleState :=
  let result := ((stringValue (record.get? "result")).map js.toLowerCase).getD ""
  let downloaded := booleanValue (record.get? "downloaded") = some true
  let installed := booleanValue (record.get? "installed") = some true
  let state := ((stringValue (record.get? "state")).map js.toLowerCase).getD ""
  if booleanValue (record.get? "matched") = some false ∨
      booleanValue (record.get? "selected") = some false ∨ result = "skipped" then none
  else if action = "install" ∧ (installed ∨ state = "installed") then some .installed
  else if action = "download" ∧ (downloaded ∨ state = "downloaded") then some .downloaded
  else if status = "failed" ∧ result ≠ "not_found" then some .failed
  else none

/-- One entry of `evidence.updates`; the first usable entry of a key counts. -/
def projectEvidenceUpdate (projected : List UpdateProjection) (item : Json) :
    Option UpdateProjection :=
  (asRecord (some item)).bind fun record =>
    (stringValue (coalesce (record.get? "updateKey") (record.get? "update_key"))).bind
      fun updateKey =>
        if projected.any fun update => update.updateKey = updateKey then none
        else
          (entryLifecycle js action status record).map fun lifecycleState =>
            { updateKey := updateKey
              lifecycleState := lifecycleState
              failureMessage :=
                if lifecycleState = .failed then
                  some (Json.obj [("source", .str "agent_action_result"), ("status", .str status),
                    ("update", .obj record)]).stringify
                else none
              requiresReboot := booleanValue
                (coalesce (record.get? "requiresReboot") (record.get? "requires_reboot")) }

def projectEvidenceUpdates : List UpdateProjection → List Json → List UpdateProjection
  | projected, [] => projected
  | projected, item :: items =>
    projectEvidenceUpdates
      (projected ++ (projectEvidenceUpdate js action status projected item).toList) items

end Projection

def evidenceUpdates (evidence : Json) : List Json :=
  asArray ((asRecord (some evidence)).bind (·.get? "updates"))

/-- The state of the listed keys when the evidence lists no updates. -/
def listedLifecycle (action status : String) : Option LifecycleState :=
  if status = "failed" then some .failed
  else if action = "install" ∧ status = "completed" then some .installed
  else if action = "download" ∧ status = "completed" then some .downloaded
  else none

def listedUpdate (evidence : Json) (lifecycleState : LifecycleState) (updateKey : String) :
    UpdateProjection where
  updateKey := updateKey
  lifecycleState := lifecycleState
  failureMessage := if lifecycleState = .failed then some evidence.stringify else none
  requiresReboot := none

variable (js : Runtime)

def projectPatchActionResultUpdates (action status : String) (updateKeys : List String)
    (evidence : Json) : ResultProjection :=
  if status = "failed" ∧ isTransactionLevelPatchFailure (asRecord (some evidence)) then ⟨true, []⟩
  else if (evidenceUpdates evidence).isEmpty then
    match listedLifecycle action status with
    | none => ⟨false, []⟩
    | some lifecycleState => ⟨false, updateKeys.map (listedUpdate evidence lifecycleState)⟩
  else ⟨true, projectEvidenceUpdates js action status [] (evidenceUpdates evidence)⟩

def optionalText : Option String → Json
  | some text => .str text
  | none => .null

/-- The options as they are stored under `lastActionResult`. -/
def PatchActionResultOptions.json (options : PatchActionResultOptions) : Json :=
  .obj ([("organizationId", optionalText options.organizationId), ("agentId", .str options.agentId),
    ("operationId", optionalText options.operationId), ("action", .str options.action),
    ("status", .str options.status), ("updateKeys", .arr (options.updateKeys.map .str)),
    ("evidence", options.evidence)] ++
    (options.logDecision.map fun logDecision => ("logDecision", Json.bool logDecision)).toList)

/-! ## Statements -/

def UpdateState.advance (state : UpdateState) (now : Timestamp) (lifecycleState : LifecycleState)
    (requiresReboot : Bool) (failureMessage : String) (metadata : Json) : UpdateState :=
  { state with
    lifecycleState := lifecycleState.text
    downloadedAt :=
      if lifecycleState = .downloaded ∨ lifecycleState = .installed then
        state.downloadedAt.orElse fun _ => some now
      else state.downloadedAt
    installedAt := if lifecycleState = .installed then some now else state.installedAt
    failedAt := if lifecycleState = .failed then some now else state.failedAt
    requiresReboot := requiresReboot || state.requiresReboot
    failureMessage := if lifecycleState = .failed then some failureMessage else state.failureMessage
    metadata := jsonbConcat state.metadata metadata }

variable (device : Device) (now : Timestamp) (options : PatchActionResultOptions)

/-- `UPDATE rmm_patch_device_update_state` for the listed keys of the device. -/
def updateStatesStatement (updateKeys : List String) (projection : UpdateProjection) :
    Statement := fun db =>
  let lastActionResult := Json.obj [("lastActionResult", options.json)]
  if updateKeys.all Json.textStorable && lastActionResult.storable then
    .ok { db with
      updateStates := update db.updateStates
        (fun state => state.organizationId = device.organizationId &&
          state.agentId = device.agentId && updateKeys.contains state.updateKey)
        fun state => state.advance now projection.lifecycleState
          (projection.requiresReboot = some true)
          (projection.failureMessage.getD options.evidence.stringify) lastActionResult }
  else .error .invalidText

/-- The statements for the update states: one for each update read from the
evidence, or one for all the listed keys. -/
def lifecycleStatements : List Statement :=
  let projection := projectPatchActionResultUpdates js options.action options.status
    options.updateKeys options.evidence
  if projection.usedEvidence then
    projection.updates.map fun projected =>
      updateStatesStatement device now options [projected.updateKey] projected
  else
    match projection.updates with
    | [] => []
    | first :: _ => [updateStatesStatement device now options options.updateKeys first]

def addressed (operationId : String) (action : PatchAction) : Bool :=
  action.key = some (device.organizationId, device.agentId, operationId)

def actionResultEvidence : Json :=
  .obj [("actionResult", options.evidence)]

/-- The assignment of the action row by a post. It has no condition on the
stored status. -/
def fullWrite : ActionAssignment where
  apply action :=
    { action with
      status := options.status
      phase :=
        if isTerminalStatus options.status then action.phase.orElse fun _ => some "finalizing"
        else action.phase
      evidence := jsonbConcat action.evidence (actionResultEvidence options)
      errorMessage :=
        if options.status = "failed" then some options.evidence.stringify else action.errorMessage
      finishedAt :=
        if isTerminalStatus options.status then action.finishedAt.orElse fun _ => some now
        else action.finishedAt }
  key_eq _ := rfl

def evidenceWrite : ActionAssignment where
  apply action :=
    { action with evidence := jsonbConcat action.evidence (actionResultEvidence options) }
  key_eq _ := rfl

inductive ActionProjection where
  | full
  | evidenceOnly
deriving DecidableEq

def ActionProjection.write : ActionProjection → ActionAssignment
  | full => fullWrite now options
  | evidenceOnly => evidenceWrite options

def actionStatement (actionProjection : ActionProjection) (operationId : String) :
    Statement := fun db =>
  if Json.textStorable operationId && Json.textStorable options.status &&
      options.evidence.storable then
    .ok (db.updateActions (addressed device operationId) (actionProjection.write now options))
  else .error .invalidText

def oneShotActions : List String :=
  ["force_scan", "force_download", "force_install", "force_reboot"]

def readOverrideIdsFromDecisionDetails (details : Json) : List String :=
  let metadata := (asRecord (((asRecord (some details)).getD []).get? "metadata")).getD []
  match coalesce (metadata.get? "overrideIds") (metadata.get? "overrideId") with
  | some (.arr values) => values.filterMap fun value =>
    match value with
    | .str text => if trim text = "" then none else some text
    | _ => none
  | some (.str text) => if trim text = "" then [] else [text]
  | _ => []

variable (db : PatchDatabase)

/-- `ORDER BY decided_at DESC LIMIT 1` among the decisions of an operation that
were not logged by an agent. -/
def latestDecision (organizationId agentId operationId : String) : Option DecisionLogRow :=
  ((db.decisionLog.filter fun row : DecisionLogRow => row.organizationId = organizationId &&
    row.agentId = agentId && row.operationId = operationId && row.actorType ≠ "agent").insertionSort
      fun a b : DecisionLogRow => b.decidedAt ≤ a.decidedAt).head?

def disableCompletedOneShotOverrides (operationId : Option String) (status : String) :
    Statement := fun db =>
  match operationId.filter fun operationId => operationId ≠ "" with
  | none => .ok db
  | some operationId =>
    if ¬ (status = "completed" ∨ status = "failed") then .ok db
    else if !Json.textStorable operationId then .error .invalidText
    else
      let overrideIds := ((latestDecision db device.organizationId device.agentId operationId).map
        fun row => readOverrideIdsFromDecisionDetails row.details).getD []
      .ok { db with
        overrides := update db.overrides
          (fun row => row.organizationId = device.organizationId && overrideIds.contains row.id &&
            oneShotActions.contains row.action && row.enabled)
          fun row => { row with enabled := false } }

/-- The entry of the decision log; without an operation the source draws a
random identifier, which is the argument `freshId`. -/
def decisionLogStatement (databaseNow : Timestamp) (options : PatchActionResultOptions)
    (freshId : String) : Statement := fun db =>
  let reason := "Agent reported " ++ options.action ++ " " ++ options.status ++ "."
  let operationId := options.operationId.getD freshId
  if Json.textStorable operationId && Json.textStorable options.action &&
      Json.textStorable options.status && options.updateKeys.all Json.textStorable &&
      options.evidence.storable then
    .ok { db with
      decisionLog := db.decisionLog ++ [
        { organizationId := device.organizationId
          agentId := device.agentId
          operationId := operationId
          action := options.action
          updateKeys := .arr (options.updateKeys.map .str)
          decision := options.status
          reason := reason
          actorType := "agent"
          details := .obj [("source", .str "agent_action_result"), ("evidence", options.evidence)]
          decidedAt := databaseNow }] }
  else .error .invalidText

/-- `loadDevice`: an empty organization is no restriction. -/
def loadDevice (agentId : String) (organizationId : Option String) : Option Device :=
  db.remediation.devices.find? fun device => device.agentId = agentId &&
    (organizationId.filter fun organizationId => organizationId ≠ "").all fun organizationId =>
      device.organizationId = organizationId

def resultStatements (clock : Clock) (options : PatchActionResultOptions)
    (actionProjection : ActionProjection) (freshId : String) : List Statement :=
  lifecycleStatements js device clock.now options ++
  (match options.operationId.filter fun operationId => operationId ≠ "" with
    | some operationId => [actionStatement device clock.now options actionProjection operationId]
    | none => []) ++
  [disableCompletedOneShotOverrides device options.operationId options.status] ++
  (if options.logDecision = some false then []
    else [decisionLogStatement device clock.databaseNow options freshId])

inductive ResultError where
  | deviceNotFound
  | sql (error : SqlError)
deriving DecidableEq

/-- `recordPatchActionResult`: the statements commit one by one. -/
def recordPatchActionResult (clock : Clock) (options : PatchActionResultOptions)
    (freshId : String) : PatchDatabase × Option ResultError :=
  if !(Json.textStorable options.agentId && options.organizationId.all Json.textStorable) then
    (db, some (.sql .invalidText))
  else
    match loadDevice db options.agentId options.organizationId with
    | none => (db, some .deviceNotFound)
    | some device =>
      let (db', error) := execute db (resultStatements js device clock options .full freshId)
      (db', error.map .sql)

/-- `recordPatchActionResultInTransaction`: the status of the action row is the
caller's business, and no decision is logged. -/
def recordPatchActionResultInTransaction (clock : Clock) (options : PatchActionResultOptions) :
    Except ResultError PatchDatabase :=
  match loadDevice db options.agentId options.organizationId with
  | none => .error .deviceNotFound
  | some device =>
    match transaction db (resultStatements js device clock
        { options with logDecision := some false } .evidenceOnly "") with
    | .error error => .error (.sql error)
    | .ok db' => .ok db'

/-! ## What the statements change -/

/-- The statement leaves the action rows and the remediation tables alone. -/
def KeepsActions (statement : Statement) : Prop :=
  ∀ db db', statement db = .ok db' → db'.actions = db.actions ∧ db'.remediation = db.remediation

variable (device : Device)

theorem updateStatesStatement_keepsActions (updateKeys : List String)
    (projection : UpdateProjection) :
    KeepsActions (updateStatesStatement device now options updateKeys projection) := by
  intro db db' h
  unfold updateStatesStatement at h
  dsimp only at h
  split_ifs at h
  cases h
  exact ⟨rfl, rfl⟩

theorem lifecycleStatements_keepsActions (device : Device) (now : Timestamp)
    (options : PatchActionResultOptions) :
    ∀ statement ∈ lifecycleStatements js device now options, KeepsActions statement := by
  intro statement h
  unfold lifecycleStatements at h
  dsimp only at h
  split_ifs at h
  · obtain ⟨projected, -, rfl⟩ := List.mem_map.mp h
    exact updateStatesStatement_keepsActions _ _ _ _ _
  · split at h
    · cases h
    · rw [List.mem_singleton.mp h]
      exact updateStatesStatement_keepsActions _ _ _ _ _

theorem disableCompletedOneShotOverrides_keepsActions (operationId : Option String)
    (status : String) :
    KeepsActions (disableCompletedOneShotOverrides device operationId status) := by
  intro db db' h
  unfold disableCompletedOneShotOverrides at h
  split at h
  · cases h
    exact ⟨rfl, rfl⟩
  · split_ifs at h <;> cases h <;> exact ⟨rfl, rfl⟩

theorem decisionLogStatement_keepsActions (databaseNow : Timestamp)
    (options : PatchActionResultOptions) (freshId : String) :
    KeepsActions (decisionLogStatement device databaseNow options freshId) := by
  intro db db' h
  unfold decisionLogStatement at h
  dsimp only at h
  split_ifs at h
  cases h
  exact ⟨rfl, rfl⟩

variable {actionProjection : ActionProjection}

theorem actionStatement_ok {device : Device} {now : Timestamp}
    {options : PatchActionResultOptions} {operationId : String} {db db' : PatchDatabase}
    (h : actionStatement device now options actionProjection operationId db = .ok db') :
    db' = db.updateActions (addressed device operationId) (actionProjection.write now options) := by
  unfold actionStatement at h
  split_ifs at h
  cases h
  rfl

/-- Of the statements of a result only one writes an action row. -/
theorem resultStatements_cases {js : Runtime} {device : Device} {clock : Clock}
    {options : PatchActionResultOptions} {freshId : String} {statement : Statement}
    (h : statement ∈ resultStatements js device clock options actionProjection freshId) :
    KeepsActions statement ∨ ∃ operationId, options.operationId = some operationId ∧
      statement = actionStatement device clock.now options actionProjection operationId := by
  unfold resultStatements at h
  rcases List.mem_append.mp h with h | hlog
  · rcases List.mem_append.mp h with h | hdisable
    · rcases List.mem_append.mp h with hlifecycle | haction
      · exact Or.inl (lifecycleStatements_keepsActions _ _ _ _ _ hlifecycle)
      · split at haction
        · rename_i operationId hoperation
          right
          exact ⟨operationId, (Option.filter_eq_some_iff.mp hoperation).1,
            List.mem_singleton.mp haction⟩
        · cases haction
    · rw [List.mem_singleton.mp hdisable]
      exact Or.inl (disableCompletedOneShotOverrides_keepsActions _ _ _)
  · split_ifs at hlog
    · cases hlog
    · rw [List.mem_singleton.mp hlog]
      exact Or.inl (decisionLogStatement_keepsActions _ _ _ _)

end Talos.Patch
