import Talos.Patch.ActionResult

/-!
# Projecting patch progress

A batch of progress events runs in one transaction. Each event is classified
against the stored action row: an event for a row that is already terminal, or
older than the row, is ignored; any other is written, and a terminal one also
disables the one-shot overrides of its operation and records the result.

`TerminalEffects` is a log of these side effects, kept beside the tables so that
statements can count them.
-/

namespace Talos.Patch

open JavaScript Relational
open Remediation (Timestamp SqlError Device ReportableStatus)

structure NormalizedPatchProgress where
  organizationId : String
  agentId : String
  operationId : String
  eventType : Option String
  status : ReportableStatus
  phase : String
  reportedAt : Timestamp
  summary : Option Record
  error : Option String
  updateKeys : List String
  progress : Record
  evidence : Record

def progressActionTypes : List String := ["scan", "download", "install", "reboot"]

/-- A number of the summary, zero when it is missing. -/
def summaryCount (summary : Option Record) (name : String) : Number :=
  match summary.bind (·.get? name) with
  | some (.num value) => value
  | _ => .finite 0

variable (js : Runtime)

def inferPatchProgressActionType (eventType : Option String) (phase status : String)
    (summary : Option Record) (existingActionType : Option String) : String :=
  match (existingActionType.map trim).filter progressActionTypes.contains with
  | some existing => existing
  | none =>
    if eventType.map trim = some "patch.scan.progress" then "scan"
    else
      let downloaded := summaryCount summary "downloaded"
      let installed := summaryCount summary "installed"
      let onlyDownloaded := (Number.finite 0).lt downloaded && installed.same (.finite 0)
      let status := js.toLowerCase (trim status)
      let phase := js.toLowerCase (trim phase)
      if phase = "scanning" then "scan"
      else if phase = "downloading" then "download"
      else if phase = "finalizing" ∧ status = "completed" ∧ onlyDownloaded then "download"
      else if phase = "installing" ∨ phase = "finalizing" then "install"
      else if (Number.finite 0).lt installed then "install"
      else if status = "failed" then "install"
      else if status = "completed" ∧ onlyDownloaded then "download"
      else "install"

inductive PatchProgressTransition where
  | apply
  | duplicateTerminal
  | terminalConflict
  | stale
deriving DecidableEq

def classifyPatchProgressTransition (existing : Option PatchAction)
    (incoming : NormalizedPatchProgress) : PatchProgressTransition :=
  match existing with
  | none => .apply
  | some existing =>
    if isTerminalStatus existing.status then
      if existing.status = incoming.status.text then .duplicateTerminal else .terminalConflict
    else if existing.reportedAt.any fun reportedAt => incoming.reportedAt < reportedAt then .stale
    else .apply

/-! ## Writing an event -/

inductive BatchError where
  | emptyBatch
  | scope (itemIndex : ℕ)
  | sql (error : SqlError)
  | result (error : ResultError)
deriving DecidableEq

def BatchError.message : BatchError → Option String
  | scope _ => some "agentId does not belong to organizationId"
  | _ => none

variable (progress : NormalizedPatchProgress)

def NormalizedPatchProgress.key : String × String × String :=
  (progress.organizationId, progress.agentId, progress.operationId)

/-- The parameters that PostgreSQL accepts. -/
def NormalizedPatchProgress.storable : Bool :=
  Json.textStorable progress.organizationId && Json.textStorable progress.agentId &&
    Json.textStorable progress.operationId && Json.textStorable progress.phase &&
    progress.error.all Json.textStorable && progress.updateKeys.all Json.textStorable &&
    (Json.obj progress.progress).storable && (Json.obj progress.evidence).storable

def NormalizedPatchProgress.finished : Bool :=
  isTerminalStatus progress.status.text

def progressActionType (existingAction : Option PatchAction) (progress : NormalizedPatchProgress) :
    String :=
  inferPatchProgressActionType js progress.eventType progress.phase progress.status.text
    progress.summary (existingAction.map PatchAction.actionType)

variable (actionType : String)

def progressValues : PatchAction where
  organizationId := progress.organizationId
  agentId := progress.agentId
  operationId := progress.operationId
  actionType := actionType
  status := progress.status.text
  phase := some progress.phase
  updateKeys := .arr (progress.updateKeys.map .str)
  progress := .obj progress.progress
  evidence := .obj progress.evidence
  errorMessage := progress.error
  remediationJobId := none
  remediationCommandId := none
  requestedBy := "agent"
  reportedAt := some progress.reportedAt
  startedAt := if progress.status = .running then some progress.reportedAt else none
  finishedAt := if progress.finished then some progress.reportedAt else none

def progressWrite : ActionAssignment where
  apply action :=
    { action with
      actionType :=
        if progressActionTypes.contains action.actionType then action.actionType else actionType
      status := progress.status.text
      phase := some progress.phase
      updateKeys :=
        if progress.updateKeys.isEmpty then action.updateKeys
        else .arr (progress.updateKeys.map .str)
      progress := .obj progress.progress
      evidence := .obj progress.evidence
      errorMessage := progress.error
      reportedAt := some progress.reportedAt
      startedAt := action.startedAt.orElse fun _ =>
        (progressValues progress actionType).startedAt.orElse fun _ => some progress.reportedAt
      finishedAt :=
        if progress.finished then action.finishedAt.orElse fun _ => some progress.reportedAt
        else action.finishedAt }
  key_eq _ := rfl

def progressOverwrites (action : PatchAction) : Bool :=
  !isTerminalStatus action.status &&
    action.reportedAt.all fun reportedAt => reportedAt ≤ progress.reportedAt

variable (db : PatchDatabase)

/-- The upsert, with the number of rows it changed. -/
def upsertProgress (progress : NormalizedPatchProgress) (actionType : String) :
    Except SqlError (PatchDatabase × ℕ) :=
  if !progress.storable then .error .invalidText
  else
    match db.action? progress.key with
    | none =>
      match db.insertAction (progressValues progress actionType) with
      | .error error => .error error
      | .ok db' => .ok (db', 1)
    | some action =>
      if progressOverwrites progress action then
        .ok (db.updateActions (fun row => row.key = some progress.key)
          (progressWrite progress actionType), 1)
      else .ok (db, 0)

/-- The one-shot overrides of the operation on this device. -/
def disableOperationOverrides (progress : NormalizedPatchProgress) : PatchDatabase :=
  { db with
    overrides := update db.overrides
      (fun row => row.organizationId = progress.organizationId && row.scopeType = "device" &&
        row.scopeKey = progress.agentId && row.operationId = some progress.operationId &&
        oneShotActions.contains row.action && row.enabled)
      fun row => { row with enabled := false } }

/-- The side effects of one event; `recorded` says whether a result was
recorded next to the cleanup of the overrides. -/
structure TerminalEffects where
  event : NormalizedPatchProgress
  recorded : Bool

def recordsResult : Bool :=
  (progress.status.text = "completed" || progress.status.text = "failed") &&
    (actionType = "download" || actionType = "install")

def resultOptions : PatchActionResultOptions where
  organizationId := some progress.organizationId
  agentId := progress.agentId
  operationId := some progress.operationId
  action := actionType
  status := progress.status.text
  updateKeys := progress.updateKeys
  evidence := .obj progress.evidence
  logDecision := none

def terminalEffects (clock : Clock) (progress : NormalizedPatchProgress) (actionType : String) :
    Except BatchError (PatchDatabase × TerminalEffects) :=
  let cleaned := disableOperationOverrides db progress
  if recordsResult progress actionType then
    match recordPatchActionResultInTransaction js cleaned clock
        (resultOptions progress actionType) with
    | .error error => .error (.result error)
    | .ok db' => .ok (db', ⟨progress, true⟩)
  else .ok (cleaned, ⟨progress, false⟩)

structure BatchResult where
  updated : ℕ
  ignored : ℕ
  effects : List TerminalEffects

def projectPatchProgress (clock : Clock) (db : PatchDatabase) (progress : NormalizedPatchProgress) :
    Except BatchError (PatchDatabase × BatchResult) :=
  let existingAction := db.action? progress.key
  if !(Json.textStorable progress.organizationId && Json.textStorable progress.operationId) then
    .error (.sql .invalidText)
  else if classifyPatchProgressTransition existingAction progress ≠ .apply then .ok (db, ⟨0, 1, []⟩)
  else
    let actionType := progressActionType js existingAction progress
    match upsertProgress db progress actionType with
    | .error error => .error (.sql error)
    | .ok (_, 0) => .ok (db, ⟨0, 1, []⟩)
    | .ok (db', _) =>
      if !progress.finished then .ok (db', ⟨1, 0, []⟩)
      else
        match terminalEffects js db' clock progress actionType with
        | .error error => .error error
        | .ok (settled, effects) => .ok (settled, ⟨1, 0, [effects]⟩)

def projectPatchProgressItems (js : Runtime) (clock : Clock) :
    PatchDatabase → BatchResult → List NormalizedPatchProgress →
      Except BatchError (PatchDatabase × BatchResult)
  | db, result, [] => .ok (db, result)
  | db, result, progress :: items =>
    match projectPatchProgress js clock db progress with
    | .error error => .error error
    | .ok (db', ⟨updated, ignored, effects⟩) =>
      projectPatchProgressItems js clock db'
        ⟨result.updated + updated, result.ignored + ignored, result.effects ++ effects⟩ items

/-- `organizationByAgent.get(agentId) === organizationId`. -/
def inOrganization (progress : NormalizedPatchProgress) : Bool :=
  (db.remediation.devices.find? fun device => device.agentId = progress.agentId).any fun device =>
    device.organizationId = progress.organizationId

/-- An empty batch fails in `Prisma.join`, which refuses an empty list. -/
def projectPatchProgressBatch (clock : Clock) (progressItems : List NormalizedPatchProgress) :
    Except BatchError (PatchDatabase × BatchResult) :=
  if progressItems.isEmpty then .error .emptyBatch
  else if !progressItems.all (fun progress => Json.textStorable progress.agentId) then
    .error (.sql .invalidText)
  else
    match progressItems.findIdx? fun progress => !inOrganization db progress with
    | some itemIndex => .error (.scope itemIndex)
    | none => projectPatchProgressItems js clock db ⟨0, 0, []⟩ progressItems

end Talos.Patch
