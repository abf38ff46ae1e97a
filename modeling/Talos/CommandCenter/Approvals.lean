import Talos.CommandCenter.Leases

/-!
# Command approvals

A runner proposes a command, and the API keeps one approval for each turn of a job: a
second proposal for the turn is answered with the approval that is there. The user of the
job approves or denies it, or takes over on the desktop; the runner polls, and reports the
execution. Stopping the job settles what is open.
-/

namespace Talos.CommandCenter

open Interactive Program JavaScript

structure Context where
  organizationId : String
  userId : String
deriving DecidableEq

def setApprovalStatus (approvalId : String) (status : CommandApprovalStatus)
    (decidedByUserId : Option String) : Statement :=
  .updateApproval approvalId ⟨some status, decidedByUserId⟩

/-! ## Stopping a job -/

def settledStatus (approval : CommandApproval) : CommandApprovalStatus :=
  if approval.status = .executing then .failed else .denied

def settleCommandApprovals (userId : String) : List CommandApproval → Handler Unit
  | [] => pure ()
  | approval :: approvals => do
      let _ ← query (setApprovalStatus approval.id (settledStatus approval)
        (approval.decidedByUserId.or (some userId)))
      settleCommandApprovals userId approvals

def settleOpenCommandApprovalsForStoppedJob (job : Job) (userId : String) : Handler Unit := do
  let approvals ← query (.findOpenApprovals job.id job.organizationId job.userId)
  settleCommandApprovals userId approvals

variable (context : Context) (jobId : String)

def stopAiRunnerJob : Handler (Option Job) := do
  let (existing, now) ← queryAt (.findJobOf jobId context.organizationId context.userId)
  match existing with
  | none => pure none
  | some existing =>
    if isTerminalStatus existing.status then pure (some existing)
    else do
      let _ ← query (.requestStop jobId context.organizationId context.userId now)
      let jobAfterStop ← query (.findJob jobId)
      match jobAfterStop with
      | none => pure none
      | some jobAfterStop => do
          let _ ← (createAiRunnerEvent jobAfterStop.id ("stop_requested:" ++ Date.isoText now)
            "stop_requested" none).attempt
          settleOpenCommandApprovalsForStoppedJob jobAfterStop context.userId
          let stoppedRemotely : Bool ← ask (.stopRunner jobId)
          let _ ← query (.finishStop jobId context.organizationId context.userId stoppedRemotely)
          query (.findJob jobId)

/-! ## Proposals of a runner -/

def commandApprovalTimeoutMs : ℤ := 10 * 60 * 1000

def findApprovalOfEvent (event : RunnerEvent × Bool) : Handler (Option CommandApproval) :=
  match event.1.commandApprovalId with
  | some approvalId =>
    if event.2 || approvalId = "" then pure none else query (.findApproval approvalId jobId)
  | none => pure none

def createCommandApproval (job : Job) (jobId command : String) (turnIndex : ℕ)
    (event : RunnerEvent) (now : Timestamp) : Handler CommandApproval := do
  let id : String ← ask .cuid
  let record ← query (.createApproval
    { id := id
      jobId := jobId
      organizationId := job.organizationId
      userId := job.userId
      turnIndex := turnIndex
      command := command
      status := .pending
      decidedByUserId := none
      expiresAt := some (now + commandApprovalTimeoutMs) })
  linkAiRunnerEvent event record.id
  match job.conversationId with
  | none => pure record
  | some conversationId => do
      let message : Except Failure Bool ← ask (.appendMessage conversationId)
      let message ← ofOutcome message
      if message then query (.updateApproval record.id ⟨none, none⟩) else pure record

def readProposal (input : ApprovalInput) : Except Failure (ℕ × String) :=
  match stringValue input.command, stringValue input.explanation, stringValue input.risk with
  | some command, some _, some _ => .ok ((input.turnIndex.getD 0).toNat, command)
  | _, _, _ => .error (.text "command, explanation, and risk are required")

def createAiRunnerCommandApprovalFromCallback (input : ApprovalInput) :
    Handler (Option CommandApproval) := do
  let (job, now) ← queryAt (.findJob jobId)
  match job with
  | none => pure none
  | some job => do
      ofOutcome (assertCallbackLease job now input.toCallbackSource)
      let (turnIndex, command) ← ofOutcome (readProposal input)
      let eventKey := eventKeyValue input.eventKey ("command_proposal:" ++ toString turnIndex)
      let event ← createAiRunnerEvent job.id eventKey "command_proposal" none
      let existingByEvent ← findApprovalOfEvent jobId event
      match existingByEvent with
      | some existing => pure (some existing)
      | none => do
          let (existing, now) ← queryAt (.findApprovalOfTurn jobId turnIndex)
          match existing with
          | some existing => do
              linkAiRunnerEvent event.1 existing.id
              pure (some existing)
          | none => do
              let record ← createCommandApproval job jobId command turnIndex event.1 now
              pure (some record)

/-! ## Polls and results -/

variable (approvalId : String)

def getAiRunnerCommandApprovalFromCallback : Handler (Option CommandApproval) := do
  let (record, now) ← queryAt (.findApproval approvalId jobId)
  match record with
  | none => pure none
  | some record =>
    if record.status = .pending ∧ record.expiresAt.any (fun expiresAt => expiresAt ≤ now) then do
      let updated ← query (setApprovalStatus approvalId .expired none)
      pure (some updated)
    else pure (some record)

/-- Only these are taken from a result; anything else means that the command was
executed. -/
def executionStatus (js : Runtime) (input : ExecutionInput) : CommandApprovalStatus :=
  let requested := normalizeCommandApprovalStatus js input.status
  if requested = .executing ∨ requested = .executed ∨ requested = .failed then requested
  else .executed

def CommandApprovalStatus.text : CommandApprovalStatus → String
  | .pending => "pending"
  | .approved => "approved"
  | .denied => "denied"
  | .desktopControlRequested => "desktop_control_requested"
  | .executing => "executing"
  | .executed => "executed"
  | .failed => "failed"
  | .expired => "expired"
  | .policyBlocked => "policy_blocked"

def resultEventKey (js : Runtime) (approvalId : String) (input : ExecutionInput) : String :=
  eventKeyValue input.eventKey
    ("command_result:" ++ approvalId ++ ":" ++ (executionStatus js input).text)

/-- The status that is stored does not decide whether the result is. -/
def updateAiRunnerCommandApprovalExecutionFromCallback (api : Api) (jobId approvalId : String)
    (input : ExecutionInput) : Handler (Option CommandApproval) := do
  let record ← query (.findApproval approvalId jobId)
  match record with
  | none => pure none
  | some record => do
      let (job, now) ← queryAt (.findJob jobId)
      match job with
      | none => pure none
      | some job => do
          ofOutcome (assertCallbackLease job now input.toCallbackSource)
          let event ← createAiRunnerEvent job.id (resultEventKey api.js approvalId input)
            "command_result" (some approvalId)
          if event.2 then do
            let updated ← query (setApprovalStatus approvalId (executionStatus api.js input) none)
            pure (some updated)
          else pure (some record)

/-! ## Decisions of the user -/

/-- The time at which the approval expires is not looked at. -/
def approveAiRunnerCommandApproval : Handler (Option CommandApproval) := do
  let record ← query (.findApprovalOf approvalId context.organizationId context.userId)
  match record with
  | none => pure none
  | some record =>
    if record.status = .pending then do
      let updated ← query (setApprovalStatus approvalId .approved (some context.userId))
      pure (some updated)
    else pure (some record)

def CommandApproval.isUndecided (approval : CommandApproval) : Bool :=
  approval.status = .pending || approval.status = .approved

def denyAiRunnerCommandApproval : Handler (Option CommandApproval) := do
  let record ← query (.findApprovalOf approvalId context.organizationId context.userId)
  match record with
  | none => pure none
  | some record =>
    if record.isUndecided then do
      let updated ← query (setApprovalStatus approvalId .denied (some context.userId))
      let _ ← (stopAiRunnerJob context updated.jobId).attempt
      pure (some updated)
    else pure (some record)

def shellJobType : String := "shell_goal"

def desktopJobType : String := "desktop_goal"

def denyAiRunnerCommandApprovalAndUseDesktopControl : Handler (Option (CommandApproval × Job)) := do
  let record ← query (.findApprovalOf approvalId context.organizationId context.userId)
  match record with
  | none => pure none
  | some record => do
      let sourceJob ← query (.findJobOf record.jobId context.organizationId context.userId)
      match sourceJob with
      | none => pure none
      | some sourceJob =>
        if sourceJob.jobType = shellJobType && sourceJob.isActive && record.isUndecided then do
          let updatedApproval ← query (setApprovalStatus approvalId .desktopControlRequested
            (some context.userId))
          let updatedJob ← query (.updateJob sourceJob.id
            ⟨some .running, none, some desktopJobType⟩)
          let _ ← (createAiRunnerEvent updatedJob.id ("desktop_control_requested:" ++ approvalId)
            "desktop_control_requested" (some approvalId)).attempt
          pure (some (updatedApproval, updatedJob))
        else pure (some (record, sourceJob))

/-! ## Routes -/

def Callback.serve (api : Api) : (callback : Callback) → Handler (Option callback.Reply)
  | .acquireLease jobId runnerId => acquireAiRunnerJobLease api jobId runnerId
  | .heartbeatLease jobId leaseId runnerId => heartbeatAiRunnerJobLease api jobId leaseId runnerId
  | .releaseLease jobId leaseId runnerId => releaseAiRunnerJobLease jobId leaseId runnerId
  | .event jobId input => appendAiRunnerEventFromCallback api jobId input
  | .status jobId input => updateAiRunnerJobStatusFromCallback api jobId input
  | .createApproval jobId input => createAiRunnerCommandApprovalFromCallback jobId input
  | .getApproval jobId approvalId => getAiRunnerCommandApprovalFromCallback jobId approvalId
  | .approvalResult jobId approvalId input =>
    updateAiRunnerCommandApprovalExecutionFromCallback api jobId approvalId input

/-- What the API is asked to do, by runners, by users and by its own timer. -/
inductive ApiCall where
  | callback (request : Callback)
  | approve (context : Context) (approvalId : String)
  | deny (context : Context) (approvalId : String)
  | denyAndUseDesktopControl (context : Context) (approvalId : String)
  | stop (context : Context) (jobId : String)
  | createJob (input : JobInput)
  | reconcile

def ApiCall.program (api : Api) : ApiCall → Handler Unit
  | .callback request => do
      let reply ← request.serve api
      match reply with
      | none => pure ()
      | some reply => do
          let _ : Bool ← ask (.respond request reply)
          pure ()
  | .approve context approvalId => do
      let _ ← approveAiRunnerCommandApproval context approvalId
      pure ()
  | .deny context approvalId => do
      let _ ← denyAiRunnerCommandApproval context approvalId
      pure ()
  | .denyAndUseDesktopControl context approvalId => do
      let _ ← denyAiRunnerCommandApprovalAndUseDesktopControl context approvalId
      pure ()
  | .stop context jobId => do
      let _ ← stopAiRunnerJob context jobId
      pure ()
  | .createJob input => do
      let _ ← createAiRunnerJob input
      pure ()
  | .reconcile => reconcileExpiredAiRunnerJobLeases

/-! ## The API on its tables -/

/-- What comes from outside with an operation: the time, whether a statement fails, and
the answers that are not in the tables. -/
structure Outside where
  now : Timestamp
  fault : Option Failure
  answer : (op : Op) → op.Answer

def bareApi : Api := ⟨Runtime.bare, 30000, 500, 262144⟩

def Outside.plain (now : Timestamp) : Outside where
  now := now
  fault := none
  answer
    | .query _ => .error (.text "")
    | .clock => now
    | .uuid => ⟨"lease", by decide, by decide⟩
    | .cuid => "approval"
    | .appendMessage _ => .ok true
    | .outputLengths => fun _ => 0
    | .attachSecrets _ => .ok ()
    | .startRunner _ => .ok none
    | .stopRunner _ | .send .. | .respond .. | .reserveJob .. => true
    | .activeJobs _ | .missingSecrets _ => []
    | .recordJob .. | .removeActive .. | .spawnJob .. => ()
    | .jobLeaseId .. | .spawnedJob .. => none
    | .isCancelled .. => false
    | .desktopStep _ => .finish (.ok ())
    | .endpointApproval _ | .openShell _ | .validateSecrets _ | .materializeSecret _
    | .startCommand .. | .sendInterrupt => .ok ()
    | .requestProposal _ => .error (.text "")
    | .awaitCommand => .ok .completed
    | .checkpointProposal _ => .completed

def Database.perform (outside : Outside) (db : Database) : (op : Op) → op.Answer × Database
  | .query statement =>
    match outside.fault with
    | some e => (.error e, db)
    | none =>
      let result := db.execute statement
      (result.1.map fun value => (value, outside.now), result.2)
  | .clock => (outside.now, db)
  | op => (outside.answer op, db)

end Talos.CommandCenter
