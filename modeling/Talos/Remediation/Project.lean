import Talos.Remediation.Database

/-!
# Projecting a remediation command

`insertRemediationJob` writes one command into the tables: the device must be in
scope, the job row is upserted under the identity that the payload carries, and
the steps are upserted one by one. The identity decides the statement: with a
command and a dedupe key the conflict is looked for on the dedupe key, with a
command alone on the command, with a dedupe key alone on the dedupe key among
rows without a command, and without either the row is always new.

Every column that the conflict branch of a job statement assigns is guarded by
the same `CASE` on the stored status; `refreshUnlessStarted` is that guard.
-/

namespace Talos.Remediation

open JavaScript Relational Database

structure RemediationJobInsertOptions where
  commandId : Option String
  organizationId : String
  agentId : String
  decisionId : Option ℤ
  intentId : String
  status : Option String
  dedupeKey : Option String
  requestedBy : Option String
  metadata : Option Json
  steps : Option Json
  execution : Option Json

inductive ProjectionError where
  | scope
  | conflict
  | sql (error : SqlError)
deriving DecidableEq

def ProjectionError.message : ProjectionError → Option String
  | scope => some "device not found in the requested organization"
  | conflict => some "commandId or dedupeKey is already owned by another remediation job"
  | sql _ => none

structure ProjectionResult where
  jobId : ℕ
  status : String
  insertedSteps : ℕ
deriving DecidableEq

/-- The text of an optional string that JavaScript takes as true. -/
def truthy (text : Option String) : Option String := text.filter fun text => text ≠ ""

/-- The statuses that the statements list as started. -/
def isStarted (status : String) : Bool :=
  ["running", "completed", "failed", "cancelled"].contains status

def remediationDispatchSnapshotKey : String := "__talosDispatchV1"

def persistedRemediationMetadata (metadata execution steps : Option Json) : Record :=
  Record.set ((asRecord metadata).getD []) remediationDispatchSnapshotKey
    (.obj [("execution", .obj ((asRecord execution).getD [])), ("steps", .arr (asArray steps))])

/-! ## The device -/

inductive ScopeFailure where
  | deviceScope (message : String)
  | sql (error : SqlError)
deriving DecidableEq

variable (db : Database)

/-- An empty organization is not compared with the device's. -/
def requireDeviceScope (agentId : String) (at_ : Timestamp) (organizationIdInput : Option String) :
    Except ScopeFailure (Database × Device) :=
  if !Json.textStorable agentId then .error (.sql .invalidText)
  else
    match db.devices.find? fun device => device.agentId = agentId with
    | none => .error (.deviceScope ("device not found for agentId=" ++ agentId))
    | some device =>
      if (truthy organizationIdInput).any fun organizationId =>
          device.organizationId ≠ organizationId then
        .error (.deviceScope ("organization mismatch for agentId=" ++ agentId))
      else .ok (db.touchDevice agentId at_, device)

/-! ## The job row -/

/-- `CASE WHEN status IN ('running', 'completed', 'failed', 'cancelled') THEN the
stored value ELSE the new one END`, for every assigned column. -/
def refreshUnlessStarted (refresh : Job → Job) (job : Job) : Job :=
  if isStarted job.status then job else refresh job

/-- The conflict branch of the two statements that carry a command. The
statement with a dedupe key also assigns `command_id`, which its `WHERE` clause
has just found equal. -/
def refreshCommand (excluded : Job) : JobAssignment where
  apply := refreshUnlessStarted fun job =>
    { job with
      status := excluded.status
      requestedBy := excluded.requestedBy
      requestedAt := excluded.requestedAt
      metadata := excluded.metadata
      startedAt := none
      finishedAt := none }
  id_eq job := by unfold refreshUnlessStarted; split <;> rfl
  commandId_eq job := by unfold refreshUnlessStarted; split <;> rfl
  dedupeKey_eq job := by unfold refreshUnlessStarted; split <;> rfl

/-- The conflict branch of the statement with a dedupe key and no command. -/
def refreshDedupe (excluded : Job) : JobAssignment where
  apply := refreshUnlessStarted fun job =>
    { job with
      requestedAt := excluded.requestedAt
      metadata := excluded.metadata }
  id_eq job := by unfold refreshUnlessStarted; split <;> rfl
  commandId_eq job := by unfold refreshUnlessStarted; split <;> rfl
  dedupeKey_eq job := by unfold refreshUnlessStarted; split <;> rfl

/-- The owner columns that every conflict branch compares. -/
def sameOwner (job excluded : Job) : Bool :=
  job.organizationId = excluded.organizationId && job.agentId = excluded.agentId &&
    job.intentId = excluded.intentId

/-- `INSERT … ON CONFLICT … DO UPDATE … WHERE … RETURNING id, status`. A conflict
whose row fails the `WHERE` clause returns no row. -/
def upsertJob (values : Job) (conflicts owned : Job → Bool) (set : JobAssignment) :
    Except SqlError (Database × Option Job) :=
  match db.jobs.find? conflicts with
  | some job =>
    if owned job then
      .ok (db.updateJobs (fun row => row.id = job.id) set, some (set.apply job))
    else .ok (db, none)
  | none =>
    match db.insertJob values with
    | .error error => .error error
    | .ok (db', row) => .ok (db', some row)

def RemediationJobInsertOptions.jobValues (options : RemediationJobInsertOptions)
    (now : Timestamp) : Job where
  id := 0
  commandId := truthy options.commandId
  organizationId := options.organizationId
  agentId := options.agentId
  decisionId := options.decisionId
  intentId := options.intentId
  status := (truthy options.status).getD "queued"
  -- the statement without a dedupe key passes an empty one on when a command is given
  dedupeKey := if (truthy options.commandId).isSome then options.dedupeKey
    else truthy options.dedupeKey
  requestedBy := (truthy options.requestedBy).getD "consumer"
  metadata := .obj (persistedRemediationMetadata options.metadata options.execution options.steps)
  requestedAt := now
  startedAt := none
  finishedAt := none

def jobParameterError (values : Job) : Option SqlError :=
  if !(values.commandId.all Json.textStorable && Json.textStorable values.organizationId &&
      Json.textStorable values.agentId && Json.textStorable values.intentId &&
      Json.textStorable values.status && values.dedupeKey.all Json.textStorable &&
      Json.textStorable values.requestedBy && values.metadata.storable) then
    some .invalidText
  else if !values.decisionId.all (fun id => -2 ^ 63 ≤ id && id < 2 ^ 63) then
    some .integerOutOfRange
  else none

def upsertProjectedJob (values : Job) (commandId dedupeKey : Option String) :
    Except SqlError (Database × Option Job) :=
  match jobParameterError values with
  | some error => .error error
  | none =>
    match commandId, dedupeKey with
    | some commandId, some dedupeKey =>
      upsertJob db values (fun job => job.dedupeKey = some dedupeKey)
        (fun job => job.commandId = some commandId && sameOwner job values)
        (refreshCommand values)
    | some commandId, none =>
      upsertJob db values (fun job => job.commandId = some commandId)
        (fun job => sameOwner job values) (refreshCommand values)
    | none, some dedupeKey =>
      upsertJob db values (fun job => job.dedupeKey = some dedupeKey)
        (fun job => job.commandId.isNone && sameOwner job values) (refreshDedupe values)
    | none, none =>
      match db.insertJob values with
      | .error error => .error error
      | .ok (db', row) => .ok (db', some row)

/-! ## The steps -/

/-- A number that is an integer, or a text that converts to one. The empty text
converts to zero. -/
def parseInteger : Option Json → Option ℤ
  | some (.num value) => value.toInt?
  | some (.str value) => (Number.ofText value).toInt?
  | _ => none

structure StepInput where
  stepIndex : ℤ
  command : String
  status : String
  evidence : Json

/-- One entry of the payload's steps at position `i`; an entry that is not an
object or has no command is skipped. -/
def readStepInput (i : ℕ) (value : Json) : Option StepInput := do
  let stepRecord ← asRecord (some value)
  let command ← readString (stepRecord.get? "command")
  some
    { stepIndex :=
        (parseInteger
          (coalesce (stepRecord.get? "stepIndex") (stepRecord.get? "step_index"))).getD i
      command := command
      status := (readString (stepRecord.get? "status")).getD "pending"
      evidence := ((asRecord (stepRecord.get? "evidence")).map Json.obj).getD .null }

def stepParameterError (input : StepInput) : Option SqlError :=
  if !(Json.textStorable input.command && Json.textStorable input.status &&
      input.evidence.storable) then some .invalidText
  else if !(-2 ^ 31 ≤ input.stepIndex && input.stepIndex < 2 ^ 31) then some .integerOutOfRange
  else none

/-- The conflict branch of the step statement. -/
def refreshStep (refreshSteps : Bool) (input : StepInput) : StepAssignment where
  apply step :=
    { step with
      command := if refreshSteps then input.command else step.command
      status := if refreshSteps then input.status else step.status
      evidence := if refreshSteps then some input.evidence else step.evidence
      startedAt := if refreshSteps then none else step.startedAt
      finishedAt := if refreshSteps then none else step.finishedAt }
  jobId_eq _ := rfl
  organizationId_eq _ := rfl
  stepIndex_eq _ := rfl

def stepValues (organizationId : String) (jobId : ℕ) (input : StepInput) : Step where
  id := 0
  organizationId := organizationId
  jobId := jobId
  stepIndex := input.stepIndex
  command := input.command
  status := input.status
  evidence := some input.evidence
  startedAt := none
  finishedAt := none

def upsertStep (organizationId : String) (jobId : ℕ) (refreshSteps : Bool) (input : StepInput) :
    Except SqlError (Database × ℕ) :=
  match stepParameterError input with
  | some error => .error error
  | none =>
    match db.steps.find? fun step => step.jobId = jobId && step.stepIndex = input.stepIndex with
    | some step =>
      if step.organizationId = organizationId then
        .ok (db.updateSteps
          (fun row => row.jobId = jobId && row.stepIndex = input.stepIndex)
          (refreshStep refreshSteps input), 1)
      else .ok (db, 0)
    | none =>
      match db.insertStep (stepValues organizationId jobId input) with
      | .error error => .error error
      | .ok db' => .ok (db', 1)

/-- The loop over the payload's steps from position `i` on. -/
def upsertSteps (organizationId : String) (jobId : ℕ) (refreshSteps : Bool) :
    Database → ℕ → ℕ → List Json → Except SqlError (Database × ℕ)
  | db, insertedSteps, _, [] => .ok (db, insertedSteps)
  | db, insertedSteps, i, value :: values =>
    match readStepInput i value with
    | none => upsertSteps organizationId jobId refreshSteps db insertedSteps (i + 1) values
    | some input =>
      match upsertStep db organizationId jobId refreshSteps input with
      | .error error => .error error
      | .ok (db', inserted) =>
        upsertSteps organizationId jobId refreshSteps db' (insertedSteps + inserted) (i + 1)
          values

/-! ## The transaction -/

/-- `at_` is the clock of the caller, `now` the start of the transaction. -/
def insertRemediationJob (at_ now : Timestamp) (options : RemediationJobInsertOptions) :
    Except ProjectionError (Database × ProjectionResult) :=
  match requireDeviceScope db options.agentId at_ (some options.organizationId) with
  | .error (.deviceScope _) => .error .scope
  | .error (.sql error) => .error (.sql error)
  | .ok (scopedDb, _) =>
    match upsertProjectedJob scopedDb (options.jobValues now) (truthy options.commandId)
        (truthy options.dedupeKey) with
    | .error error => .error (.sql error)
    | .ok (_, none) => .error .conflict
    | .ok (middle, some job) =>
      match upsertSteps options.organizationId job.id (!isStarted job.status) middle 0 0
          (asArray options.steps) with
      | .error error => .error (.sql error)
      | .ok (final, insertedSteps) => .ok (final, ⟨job.id, job.status, insertedSteps⟩)

structure Projection where
  at_ : Timestamp
  now : Timestamp
  options : RemediationJobInsertOptions

/-- The tables after the transaction; an error rolls it back. -/
def project (projection : Projection) : Database :=
  match insertRemediationJob db projection.at_ projection.now projection.options with
  | .ok (db', _) => db'
  | .error _ => db

end Talos.Remediation
