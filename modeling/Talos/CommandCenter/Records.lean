import Talos.JavaScript.Runtime
import Talos.Relational.Keyed

/-!
# The tables of the AI runner

The jobs, the command approvals and the events of the AI runner, and the statements
that the API makes on them. Each statement is one atomic step of the database: a
`findFirst`, a `create` that respects the unique indexes, an `update` of the row with an
id, or an `updateMany` with its condition, which answers with the number of rows.

The texts of proposals other than the command, the outputs and times of executions, the
results and messages of jobs are left out; nothing here reads them. So are the payloads of
events, of which only the lengths of the outputs are read.
-/

namespace Talos.CommandCenter

open JavaScript Relational

abbrev Timestamp := ℤ

structure Failure where
  message : String
  /-- `isUniqueConstraintError`. -/
  uniqueConstraint : Bool

def Failure.text (message : String) : Failure := ⟨message, false⟩

/-! ## Rows -/

inductive JobStatus where
  | queued | approvalPending | approvalGranted | approvalDenied | approvalExpired | running
  | succeeded | failed | stopping | stopped
deriving DecidableEq

def isTerminalStatus : JobStatus → Bool
  | .succeeded | .failed | .stopped | .approvalDenied | .approvalExpired => true
  | .queued | .approvalPending | .approvalGranted | .running | .stopping => false

def activeJobStatuses : List JobStatus :=
  [.queued, .approvalPending, .approvalGranted, .running, .stopping]

structure Job where
  id : String
  organizationId : String
  userId : String
  conversationId : Option String
  jobType : String
  status : JobStatus
  runnerId : Option String
  leaseId : Option String
  leaseOwnerRunnerId : Option String
  leaseExpiresAt : Option Timestamp
  cancelRequestedAt : Option Timestamp

inductive CommandApprovalStatus where
  | pending | approved | denied | desktopControlRequested | executing | executed | failed
  | expired | policyBlocked
deriving DecidableEq

structure CommandApproval where
  id : String
  jobId : String
  organizationId : String
  userId : String
  turnIndex : ℕ
  command : String
  status : CommandApprovalStatus
  decidedByUserId : Option String
  expiresAt : Option Timestamp

structure RunnerEvent where
  jobId : String
  eventKey : String
  eventType : String
  commandApprovalId : Option String

structure Database where
  jobs : Keyed Job.id
  approvals : Keyed CommandApproval.id
  events : Keyed fun event : RunnerEvent => (event.jobId, event.eventKey)

def Database.empty : Database := ⟨⟨[], .nil⟩, ⟨[], .nil⟩, ⟨[], .nil⟩⟩

/-! ## Statements -/

structure JobData where
  status : Option JobStatus
  runnerId : Option (Option String)
  jobType : Option String

structure ApprovalData where
  status : Option CommandApprovalStatus
  decidedByUserId : Option String

inductive Statement where
  | findJob (jobId : String)
  | findJobOf (jobId organizationId userId : String)
  | findExpiredJobs (now : Timestamp)
  | createJob (job : Job)
  | updateJob (jobId : String) (data : JobData)
  /-- The `updateMany` of `acquireAiRunnerJobLease`. -/
  | claimLease (jobId leaseId runnerId : String) (now leaseExpiresAt : Timestamp)
  /-- The `updateMany` of `heartbeatAiRunnerJobLease`. -/
  | extendLease (jobId leaseId runnerId : String) (now leaseExpiresAt : Timestamp)
  /-- The `updateMany` of `releaseAiRunnerJobLease`. -/
  | clearLease (jobId leaseId runnerId : String)
  /-- The `updateMany` of `reconcileExpiredAiRunnerJobLeases`. -/
  | failExpired (jobId leaseId : String) (now : Timestamp)
  /-- The first `updateMany` of `stopAiRunnerJob`. -/
  | requestStop (jobId organizationId userId : String) (now : Timestamp)
  /-- The second `updateMany` of `stopAiRunnerJob`. -/
  | finishStop (jobId organizationId userId : String) (stoppedRemotely : Bool)
  | findEvent (jobId eventKey : String)
  | createEvent (event : RunnerEvent)
  | linkEvent (jobId eventKey commandApprovalId : String)
  /-- The keys of the deltas of a command's output, the newest first. -/
  | findOutputDeltas (jobId commandApprovalId : String)
  | deleteEvents (jobId : String) (eventKeys : List String)
  | findApproval (approvalId jobId : String)
  | findApprovalOf (approvalId organizationId userId : String)
  | findApprovalOfTurn (jobId : String) (turnIndex : ℕ)
  | findOpenApprovals (jobId organizationId userId : String)
  | createApproval (approval : CommandApproval)
  | updateApproval (approvalId : String) (data : ApprovalData)

@[reducible] def Statement.Result : Statement → Type
  | .findJob _ | .findJobOf .. => Option Job
  | .findExpiredJobs _ => List Job
  | .createJob _ | .updateJob .. => Job
  | .claimLease .. | .extendLease .. | .clearLease .. | .failExpired .. | .requestStop ..
  | .finishStop .. => ℕ
  | .findEvent .. => Option RunnerEvent
  | .createEvent _ | .linkEvent .. => RunnerEvent
  | .findOutputDeltas .. => List String
  | .deleteEvents .. => Unit
  | .findApproval .. | .findApprovalOf .. | .findApprovalOfTurn .. => Option CommandApproval
  | .findOpenApprovals .. => List CommandApproval
  | .createApproval _ | .updateApproval .. => CommandApproval

def Job.isActive (job : Job) : Bool := activeJobStatuses.contains job.status

def Job.isOf (job : Job) (organizationId userId : String) : Bool :=
  job.organizationId = organizationId && job.userId = userId

def JobData.assignment (data : JobData) : Assignment Job.id where
  apply job :=
    { job with
      status := data.status.getD job.status
      runnerId := data.runnerId.getD job.runnerId
      jobType := data.jobType.getD job.jobType }
  key_eq _ := rfl

def ApprovalData.assignment (data : ApprovalData) : Assignment CommandApproval.id where
  apply approval :=
    { approval with
      status := data.status.getD approval.status
      decidedByUserId := data.decidedByUserId.or approval.decidedByUserId }
  key_eq _ := rfl

def Job.claimLease (leaseId runnerId : String) (leaseExpiresAt : Timestamp) :
    Assignment Job.id where
  apply job :=
    { job with
      leaseId := some leaseId
      leaseOwnerRunnerId := some runnerId
      leaseExpiresAt := some leaseExpiresAt
      runnerId := some runnerId }
  key_eq _ := rfl

def Job.extendLease (leaseExpiresAt : Timestamp) : Assignment Job.id where
  apply job := { job with leaseExpiresAt := some leaseExpiresAt }
  key_eq _ := rfl

def Job.clearLease : Assignment Job.id where
  apply job := { job with leaseId := none, leaseOwnerRunnerId := none, leaseExpiresAt := none }
  key_eq _ := rfl

def Job.failExpired : Assignment Job.id where
  apply job :=
    { job with
      status := .failed
      leaseId := none
      leaseOwnerRunnerId := none
      leaseExpiresAt := none }
  key_eq _ := rfl

def Job.requestStop (now : Timestamp) : Assignment Job.id where
  apply job := { job with status := .stopping, cancelRequestedAt := some now }
  key_eq _ := rfl

def Job.setStatus (status : JobStatus) : Assignment Job.id where
  apply job := { job with status := status }
  key_eq _ := rfl

def RunnerEvent.link (commandApprovalId : String) :
    Assignment fun event : RunnerEvent => (event.jobId, event.eventKey) where
  apply event := { event with commandApprovalId := some commandApprovalId }
  key_eq _ := rfl

/-- The conditions of the `updateMany`s of a lease. -/
def Job.leaseClaimable (now : Timestamp) (job : Job) : Bool :=
  job.isActive && (job.leaseId.isNone || job.leaseExpiresAt.all fun expiresAt => expiresAt ≤ now)

def Job.holdsLease (leaseId runnerId : String) (job : Job) : Bool :=
  job.leaseId = some leaseId && job.leaseOwnerRunnerId = some runnerId

def Job.leaseExtendable (leaseId runnerId : String) (now : Timestamp) (job : Job) : Bool :=
  job.holdsLease leaseId runnerId && job.isActive &&
    job.leaseExpiresAt.any fun expiresAt => now < expiresAt

def Job.leaseExpired (now : Timestamp) (job : Job) : Bool :=
  job.isActive && job.leaseId.isSome && job.leaseExpiresAt.any fun expiresAt => expiresAt ≤ now

def CommandApproval.isOpen (approval : CommandApproval) : Bool :=
  approval.status = .pending || approval.status = .approved || approval.status = .executing

def CommandApproval.isOf (approval : CommandApproval) (organizationId userId : String) : Bool :=
  approval.organizationId = organizationId && approval.userId = userId

def recordNotFound : Failure := .text "Record to update not found."

def uniqueConstraintFailed : Failure := ⟨"Unique constraint failed", true⟩

/-- An `updateMany` of the job with an id; the count is that of the rows that match. -/
def Database.updateJobs (db : Database) (jobId : String) (condition : Job → Bool)
    (set : Assignment Job.id) : ℕ × Database :=
  let p := fun job : Job => job.id = jobId && condition job
  (db.jobs.rows.countP p, { db with jobs := db.jobs.update p set })

def takeExpired : ℕ := 50

def commandOutputDeltaEventType : String := "command_output_delta"

/-- What a statement answers and what it does to the tables. -/
def Database.execute (db : Database) : (s : Statement) → Except Failure s.Result × Database
  | .findJob jobId => (.ok (db.jobs.get? jobId), db)
  | .findJobOf jobId organizationId userId =>
    (.ok ((db.jobs.get? jobId).filter (·.isOf organizationId userId)), db)
  | .findExpiredJobs now =>
    (.ok (db.jobs.choose (Job.leaseExpired now)
      (fun a b => a.leaseExpiresAt.getD 0 ≤ b.leaseExpiresAt.getD 0) takeExpired), db)
  | .createJob job =>
    match db.jobs.insertAll [job] with
    | none => (.error uniqueConstraintFailed, db)
    | some jobs => (.ok job, { db with jobs := jobs })
  | .updateJob jobId data =>
    match db.jobs.get? jobId with
    | none => (.error recordNotFound, db)
    | some job =>
      (.ok (data.assignment.apply job),
        { db with jobs := db.jobs.update (·.id = jobId) data.assignment })
  | .claimLease jobId leaseId runnerId now leaseExpiresAt =>
    let result := db.updateJobs jobId (Job.leaseClaimable now)
      (Job.claimLease leaseId runnerId leaseExpiresAt)
    (.ok result.1, result.2)
  | .extendLease jobId leaseId runnerId now leaseExpiresAt =>
    let result := db.updateJobs jobId (Job.leaseExtendable leaseId runnerId now)
      (Job.extendLease leaseExpiresAt)
    (.ok result.1, result.2)
  | .clearLease jobId leaseId runnerId =>
    let result := db.updateJobs jobId (Job.holdsLease leaseId runnerId) Job.clearLease
    (.ok result.1, result.2)
  | .failExpired jobId leaseId now =>
    let result := db.updateJobs jobId
      (fun job => job.leaseId = some leaseId && job.leaseExpired now) Job.failExpired
    (.ok result.1, result.2)
  | .requestStop jobId organizationId userId now =>
    let result := db.updateJobs jobId
      (fun job => job.isOf organizationId userId && job.isActive) (Job.requestStop now)
    (.ok result.1, result.2)
  | .finishStop jobId organizationId userId stoppedRemotely =>
    let result := db.updateJobs jobId
      (fun job => job.isOf organizationId userId && job.isActive)
      (Job.setStatus (if stoppedRemotely then .stopped else .stopping))
    (.ok result.1, result.2)
  | .findEvent jobId eventKey => (.ok (db.events.get? (jobId, eventKey)), db)
  | .createEvent event =>
    match db.events.insertAll [event] with
    | none => (.error uniqueConstraintFailed, db)
    | some events => (.ok event, { db with events := events })
  | .linkEvent jobId eventKey commandApprovalId =>
    match db.events.get? (jobId, eventKey) with
    | none => (.error recordNotFound, db)
    | some event =>
      (.ok ((RunnerEvent.link commandApprovalId).apply event),
        { db with
          events := db.events.update
            (fun event => event.jobId = jobId && event.eventKey = eventKey)
            (RunnerEvent.link commandApprovalId) })
  | .findOutputDeltas jobId commandApprovalId =>
    let records := db.events.rows.filter fun event => event.jobId = jobId &&
      event.eventType = commandOutputDeltaEventType &&
      event.commandApprovalId = some commandApprovalId
    (.ok (records.map (·.eventKey)).reverse, db)
  | .deleteEvents jobId eventKeys =>
    (.ok (), { db with
      events := db.events.remove fun event => event.jobId = jobId && event.eventKey ∈ eventKeys })
  | .findApproval approvalId jobId =>
    (.ok ((db.approvals.get? approvalId).filter (·.jobId = jobId)), db)
  | .findApprovalOf approvalId organizationId userId =>
    (.ok ((db.approvals.get? approvalId).filter (·.isOf organizationId userId)), db)
  | .findApprovalOfTurn jobId turnIndex =>
    (.ok (db.approvals.rows.find? fun approval =>
      approval.jobId = jobId && approval.turnIndex = turnIndex), db)
  | .findOpenApprovals jobId organizationId userId =>
    (.ok (db.approvals.rows.filter fun approval =>
      approval.jobId = jobId && approval.isOf organizationId userId && approval.isOpen), db)
  | .createApproval approval =>
    -- the index on the job and the turn
    if db.approvals.rows.any fun other =>
        other.jobId = approval.jobId && other.turnIndex = approval.turnIndex then
      (.error uniqueConstraintFailed, db)
    else
      match db.approvals.insertAll [approval] with
      | none => (.error uniqueConstraintFailed, db)
      | some approvals => (.ok approval, { db with approvals := approvals })
  | .updateApproval approvalId data =>
    match db.approvals.get? approvalId with
    | none => (.error recordNotFound, db)
    | some approval =>
      (.ok (data.assignment.apply approval),
        { db with approvals := db.approvals.update (·.id = approvalId) data.assignment })

/-! ## Values of a request -/

def stringValue (value : Option String) : Option String := (value.map trim).filter (· ≠ "")

@[simp] theorem stringValue_none : stringValue none = none := rfl

def normalizeCommandApprovalStatus (js : Runtime) (value : Option String) :
    CommandApprovalStatus :=
  let status := (value.map fun text => js.toLowerCase (trim text)).getD ""
  if status = "approved" then .approved
  else if status = "denied" then .denied
  else if status = "desktop_control_requested" then .desktopControlRequested
  else if status = "executing" then .executing
  else if status = "executed" then .executed
  else if status = "failed" then .failed
  else if status = "expired" then .expired
  else if status = "policy_blocked" then .policyBlocked
  else .pending

def normalizeStatus (js : Runtime) (value : Option String) : JobStatus :=
  let status := (value.map fun text => js.toLowerCase (trim text)).getD ""
  if status = "queued" then .queued
  else if status = "approval_pending" then .approvalPending
  else if status = "approval_granted" then .approvalGranted
  else if status = "approval_denied" then .approvalDenied
  else if status = "approval_expired" then .approvalExpired
  else if status = "succeeded" then .succeeded
  else if status = "failed" then .failed
  else if status = "stopping" then .stopping
  else if status = "stopped" then .stopped
  else .running

def eventKeyValue (value : Option String) (fallback : String) : String :=
  match stringValue value with
  | some text => String.ofList (sliceChars 500 text.toList)
  | none => fallback

def activeLeaseId (job : Job) (now : Timestamp) : Option String :=
  match stringValue job.leaseId, job.leaseExpiresAt with
  | some leaseId, some expiresAt => if expiresAt ≤ now then none else some leaseId
  | _, _ => none

end Talos.CommandCenter
