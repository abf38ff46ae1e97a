import Talos.CommandCenter.Operations

/-!
# Leases and the state of a job

A runner works on a job under a lease, which it acquires from the API, extends by
heartbeats and releases; a lease that has run out is reconciled, and the job fails. The
callbacks about the job itself are checked against its lease.

A request for a lease that is rejected is answered with the lease that is in the way.
-/

namespace Talos.CommandCenter

open Interactive Program JavaScript

structure Api where
  js : Runtime
  /-- `COMMAND_CENTER_AI_RUNNER_LEASE_TTL_MS`. -/
  leaseTtlMs : ℤ
  /-- `COMMAND_OUTPUT_RECENT_MAX_EVENTS`. -/
  outputMaxEvents : ℕ
  /-- `COMMAND_OUTPUT_RECENT_MAX_CHARS`. -/
  outputMaxChars : ℕ

variable (api : Api)

def Api.leaseExpiresAt (now : Timestamp) : Timestamp := now + max 1000 api.leaseTtlMs

def toLeaseSummary (record : Option Job) (accepted : Bool) (reason leaseId : Option String)
    (leaseExpiresAt : Option Timestamp) : LeaseSummary where
  accepted := accepted
  reason := reason
  leaseId := leaseId.or (record.bind fun job => stringValue job.leaseId)
  leaseExpiresAt := leaseExpiresAt.or (record.bind fun job => job.leaseExpiresAt)
  cancelRequestedAt := record.bind fun job => job.cancelRequestedAt

/-! ## Acquiring -/

/-- The answer that the row gives by itself; `none` when the lease is to be claimed. -/
def leaseVerdict (existing : Job) (runnerId : String) (now : Timestamp) : Option LeaseSummary :=
  if isTerminalStatus existing.status then
    some (toLeaseSummary existing false (some "terminal_status") none none)
  else if (activeLeaseId existing now).isSome then
    if existing.leaseOwnerRunnerId = some runnerId then
      some (toLeaseSummary existing true (some "already_leased") none none)
    else some (toLeaseSummary existing false (some "lease_active") none none)
  else none

variable (jobId : String)

def claimAiRunnerJobLease (runnerId : String) (now : Timestamp) : Handler LeaseSummary := do
  let leaseId : Uuid ← ask .uuid
  let leaseExpiresAt := api.leaseExpiresAt now
  let count ← query (.claimLease jobId leaseId.text runnerId now leaseExpiresAt)
  let record ← query (.findJob jobId)
  if count ≠ 1 then pure (toLeaseSummary record false (some "lease_active") none none)
  else do
    match record with
    | some job => do
        let _ ← createAiRunnerEvent job.id ("lease_acquired:" ++ leaseId.text) "lease_acquired" none
        pure (toLeaseSummary record true none (some leaseId.text) (some leaseExpiresAt))
    | none => pure (toLeaseSummary record true none (some leaseId.text) (some leaseExpiresAt))

def acquireAiRunnerJobLease (runnerIdInput : Option String) : Handler (Option LeaseSummary) := do
  let runnerId ← orFail (.text "runnerId is required") (stringValue runnerIdInput)
  let (existing, now) ← queryAt (.findJob jobId)
  match existing with
  | none => pure none
  | some existing =>
    match leaseVerdict existing runnerId now with
    | some summary => pure (some summary)
    | none => do
        let summary ← claimAiRunnerJobLease api jobId runnerId now
        pure (some summary)

/-! ## Keeping, releasing and reconciling -/

def heartbeatAiRunnerJobLease (leaseIdInput : String) (runnerIdInput : Option String) :
    Handler (Option LeaseSummary) := do
  let leaseId ← orFail (.text "leaseId is required") (stringValue (some leaseIdInput))
  let runnerId ← orFail (.text "runnerId is required") (stringValue runnerIdInput)
  let now : Timestamp ← ask .clock
  let leaseExpiresAt := api.leaseExpiresAt now
  let count ← query (.extendLease jobId leaseId runnerId now leaseExpiresAt)
  let record ← query (.findJob jobId)
  match record with
  | none => pure none
  | some record =>
    if count ≠ 1 then pure (some (toLeaseSummary record false (some "lease_lost") none none))
    else pure (some (toLeaseSummary record true none (some leaseId) (some leaseExpiresAt)))

def releaseAiRunnerJobLease (leaseIdInput : String) (runnerIdInput : Option String) :
    Handler (Option LeaseSummary) := do
  let leaseId ← orFail (.text "leaseId is required") (stringValue (some leaseIdInput))
  let runnerId ← orFail (.text "runnerId is required") (stringValue runnerIdInput)
  let existing ← query (.findJob jobId)
  match existing with
  | none => pure none
  | some existing => do
      let count ← query (.clearLease jobId leaseId runnerId)
      let record ← query (.findJob jobId)
      if count ≠ 1 then pure (some (toLeaseSummary record false (some "lease_lost") none none))
      else do
        let _ ← (createAiRunnerEvent existing.id ("lease_released:" ++ leaseId) "lease_released"
          none).attempt
        pure (some (toLeaseSummary record true (some "released") none none))

def reconcileExpiredJob (now : Timestamp) (job : Job) : Handler Unit :=
  match stringValue job.leaseId with
  | none => pure ()
  | some leaseId => do
      let _ ←
        (createAiRunnerEvent job.id ("lease_expired:" ++ leaseId) "lease_expired" none).attempt
      let _ ← query (.failExpired job.id leaseId now)
      pure ()

def reconcileJobs (now : Timestamp) : List Job → Handler Unit
  | [] => pure ()
  | job :: jobs => do
      reconcileExpiredJob now job
      reconcileJobs now jobs

def reconcileExpiredAiRunnerJobLeases : Handler Unit := do
  let now : Timestamp ← ask .clock
  let expired ← query (.findExpiredJobs now)
  reconcileJobs now expired

/-! ## Starting a job -/

structure JobInput where
  organizationId : String
  userId : String
  conversationId : Option String
  jobType : String
  /-- The device approves by itself, or there is a grant. -/
  endpointApprovalAlreadyGranted : Bool

variable (input : JobInput)

def JobInput.initialStatus : JobStatus :=
  if input.endpointApprovalAlreadyGranted then .approvalGranted else .approvalPending

def JobInput.dispatchedStatus : JobStatus :=
  if input.endpointApprovalAlreadyGranted then .running else .approvalPending

def dispatchAiRunnerJob : Handler Job := do
  let _ ← query (.updateJob jobId ⟨none, none, none⟩)
  let response : Except Failure (Option String) ← ask (.startRunner jobId)
  let runnerId ← ofOutcome response
  query (.updateJob jobId ⟨some input.dispatchedStatus, some runnerId, none⟩)

def createAiRunnerJob : Handler Job := do
  let id : String ← ask .cuid
  let job ← query (.createJob
    { id := id
      organizationId := input.organizationId
      userId := input.userId
      conversationId := input.conversationId
      jobType := input.jobType
      status := input.initialStatus
      runnerId := none
      leaseId := none
      leaseOwnerRunnerId := none
      leaseExpiresAt := none
      cancelRequestedAt := none })
  let outcome ← attempt (do
    let attached : Except Failure Unit ← ask (.attachSecrets job.id)
    ofOutcome attached
    dispatchAiRunnerJob job.id input)
  match outcome with
  | .ok job => pure job
  | .error e => do
      -- `markAiRunnerJobFailed`
      let _ ← (query (.updateJob job.id ⟨some .failed, none, none⟩)).attempt
      fail e

/-! ## Callbacks about the job -/

/-- The records that are kept, from the newest on, after some were. -/
def keptOutputDeltas (api : Api) (lengths : String → ℕ) : ℕ → ℕ → List String → List String
  | _, _, [] => []
  | kept, chars, key :: keys =>
    if kept = 0 || (kept < api.outputMaxEvents && chars < api.outputMaxChars) then
      key :: keptOutputDeltas api lengths (kept + 1) (chars + lengths key) keys
    else keptOutputDeltas api lengths kept chars keys

def pruneCommandOutputDeltaEvents (approvalId : String) : Handler Unit := do
  let records ← query (.findOutputDeltas jobId approvalId)
  let lengths : String → ℕ ← ask .outputLengths
  if records.length ≤ api.outputMaxEvents && (records.map lengths).sum ≤ api.outputMaxChars then
    pure ()
  else do
    let keep := keptOutputDeltas api lengths 0 0 records
    let deleted := records.filter (· ∉ keep)
    if deleted.isEmpty then pure ()
    else do
      let _ ← (query (.deleteEvents jobId deleted)).attempt
      pure ()

/-- The approval whose outputs are pruned, at the end of an output and once in a while. -/
def prunedApproval (input : EventInput) : Option String :=
  ((stringValue input.commandApprovalId).or (stringValue input.payloadApprovalId)).filter fun _ =>
    input.terminal || input.sequence.all (·.tmod 20 = 0)

def appendAiRunnerEventFromCallback (input : EventInput) : Handler (Option RunnerEvent) := do
  let (job, now) ← queryAt (.findJob jobId)
  match job with
  | none => pure none
  | some job => do
      ofOutcome (assertCallbackLease job now input.toCallbackSource)
      let eventType := (stringValue input.eventType).getD "runner_event"
      let eventKey := eventKeyValue input.eventKey (eventType ++ ":" ++ toString now)
      let event ← createAiRunnerEvent job.id eventKey eventType
        (stringValue input.commandApprovalId)
      if event.2 && eventType = commandOutputDeltaEventType then
        match prunedApproval input with
        | none => pure (some event.1)
        | some approvalId => do
            pruneCommandOutputDeltaEvents api jobId approvalId
            pure (some event.1)
      else pure (some event.1)

/-- What the callback sets: a job that is to be cancelled can only stop. -/
def statusUpdate (existing : Job) (status : JobStatus) (runnerId : Option String) : JobData :=
  if existing.cancelRequestedAt.isSome && isTerminalStatus status && decide (status ≠ .stopped) then
    ⟨some .stopped, none, none⟩
  else ⟨some status, some (runnerId.or existing.runnerId), none⟩

def JobStatus.text : JobStatus → String
  | .queued => "queued"
  | .approvalPending => "approval_pending"
  | .approvalGranted => "approval_granted"
  | .approvalDenied => "approval_denied"
  | .approvalExpired => "approval_expired"
  | .running => "running"
  | .succeeded => "succeeded"
  | .failed => "failed"
  | .stopping => "stopping"
  | .stopped => "stopped"

def updateAiRunnerJobStatusFromCallback (input : StatusInput) : Handler (Option Job) := do
  let (existing, now) ← queryAt (.findJob jobId)
  match existing with
  | none => pure none
  | some existing => do
      let status := normalizeStatus api.js input.status
      ofOutcome (assertCallbackLease existing now input.toCallbackSource)
      let eventKey := eventKeyValue input.eventKey ("status:" ++ status.text ++ ":legacy")
      let event ← createAiRunnerEvent existing.id eventKey "status" none
      if !event.2 || isTerminalStatus existing.status then pure (some existing)
      else do
        let record ← query (.updateJob jobId (statusUpdate existing status input.runnerId))
        pure (some record)

end Talos.CommandCenter
