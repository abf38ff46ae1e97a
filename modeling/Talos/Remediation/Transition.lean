import Mathlib.Data.List.Sort
import Talos.Remediation.Report

/-!
# Applying a remediation status report

`transitionRemediationStatus` selects the job under a row lock, checks the
transition of the job and of the reported step, lets the evidence decide which
steps the report settles, and writes the steps and the derived job status. The
caller runs it in a transaction, so an error of a statement leaves the tables
as they were; `transition` is that transaction.
-/

namespace Talos.Remediation

open JavaScript Relational Database

inductive IntentScope where
  | generic
  | patch
deriving DecidableEq

inductive JobIdentity where
  | commandId (commandId : String)
  | jobId (jobId : ℕ)
deriving DecidableEq

structure Selector where
  identity : JobIdentity
  agentId : String
  organizationId : Option String
  intentScope : IntentScope

inductive TransitionResult where
  | notFound
  | stepNotFound
  | conflict (currentStatus : String)
  | stepConflict (stepIndex : ℕ) (currentStatus : String)
  | invalidEvidence (error : String)
  | updated (reportedStatus jobStatus : ReportableStatus) (jobId : ℕ) (commandId : Option String)
      (organizationId agentId : String)
deriving DecidableEq

def TransitionResult.isUpdated : TransitionResult → Bool
  | updated .. => true
  | _ => false

/-- The `WHERE` clause that finds the job. An empty organization in the
selector is no restriction. -/
def Selector.selects (selector : Selector) (job : Job) : Bool :=
  (match selector.identity with
    | .commandId commandId => job.commandId = some commandId
    | .jobId jobId => job.id = jobId) &&
  job.agentId = selector.agentId &&
  (match selector.organizationId with
    | some organizationId => organizationId = "" || job.organizationId = organizationId
    | none => true) &&
  (match selector.intentScope with
    | .patch => job.intentId = patchInstallIntentId
    | .generic => job.intentId ≠ patchInstallIntentId)

/-- `ORDER BY step_index ASC`. -/
def sortSteps (steps : List Step) : List Step :=
  steps.insertionSort fun a b => a.stepIndex ≤ b.stepIndex

/-- The assignments of a step update: the evidence column is written when the
statement carries evidence, and the finish time when the status is terminal. -/
def stepWrite (now : Timestamp) (status : ReportableStatus) (evidence : Option Json) :
    StepAssignment where
  apply step :=
    { step with
      status := status.text
      evidence := evidence.orElse fun _ => step.evidence
      startedAt := step.startedAt.orElse fun _ => some now
      finishedAt :=
        if isTerminalRemediationStatus status.text then step.finishedAt.orElse fun _ => some now
        else step.finishedAt }
  jobId_eq _ := rfl
  organizationId_eq _ := rfl
  stepIndex_eq _ := rfl

variable (db : Database) (now : Timestamp)

/-- One `UPDATE` of a step row, with its cast of the evidence to `jsonb`. -/
def writeStep (job : Job) (stepIndex : ℤ) (status : ReportableStatus) (evidence : Option Json) :
    Except SqlError Database :=
  if evidence.all Json.storable then
    .ok (db.updateSteps (fun step => step.jobId = job.id &&
        step.organizationId = job.organizationId && step.stepIndex = stepIndex)
      (stepWrite now status evidence))
  else .error .invalidText

/-- The loop that writes an aggregate projection. -/
def writeSteps (now : Timestamp) (job : Job) :
    Database → List TerminalStepProjection → Except SqlError Database
  | db, [] => .ok db
  | db, step :: steps =>
    match writeStep db now job step.stepIndex (.terminal step.status)
        (some (.obj step.evidence)) with
    | .error error => .error error
    | .ok db' => writeSteps now job db' steps

/-- `map.set(key, value)` on a JavaScript map, kept in insertion order. -/
def mapSet (map : List (ℤ × String)) (key : ℤ) (value : String) : List (ℤ × String) :=
  if map.any (·.1 = key) then map.map fun entry => if entry.1 = key then (key, value) else entry
  else map ++ [(key, value)]

def statusMap (durableSteps : List Step) : List (ℤ × String) :=
  durableSteps.map fun step => (step.stepIndex, step.status)

def jobWrite (status : ReportableStatus) : JobAssignment where
  apply job :=
    { job with
      status := status.text
      startedAt := job.startedAt.orElse fun _ => some now
      finishedAt :=
        if isTerminalRemediationStatus status.text then job.finishedAt.orElse fun _ => some now
        else job.finishedAt }
  id_eq _ := rfl
  commandId_eq _ := rfl
  dedupeKey_eq _ := rfl

def finishTransition (job : Job) (report : StatusReport) (projectedStatuses : List (ℤ × String)) :
    Database × TransitionResult :=
  let jobStatus := deriveJobStatus (projectedStatuses.map Prod.snd)
  (db.updateJobs (fun row => row.id = job.id && row.organizationId = job.organizationId &&
      row.agentId = job.agentId) (jobWrite now jobStatus),
    .updated report.status jobStatus job.id job.commandId job.organizationId job.agentId)

def projectionOf (report : StatusReport) (durableSteps : List Step) : StepProjection :=
  match report.status with
  | .running => .direct
  | .terminal status =>
    terminalStepProjection report.evidence status report.stepIndex durableSteps

/-- The job's own transition: it is running, or the report repeats its status. -/
def transitionAllowed (currentStatus : String) (reportedStatus : ReportableStatus) : Bool :=
  currentStatus = reportedStatus.text || currentStatus = "running"

def transitionRemediationStatus (selector : Selector) (report : StatusReport) :
    Except SqlError (Database × TransitionResult) :=
  match db.jobs.find? selector.selects with
  | none => .ok (db, .notFound)
  | some job =>
    if !transitionAllowed job.status report.status then
      .ok (db, .conflict job.status)
    else
      let durableSteps := sortSteps (db.stepsOf job)
      match durableSteps.find? fun step => step.stepIndex = (report.stepIndex : ℤ) with
      | none => .ok (db, .stepNotFound)
      | some targetStep =>
        if !stepTransitionAllowed targetStep.status report.status then
          .ok (db, .stepConflict report.stepIndex targetStep.status)
        else
          match projectionOf report durableSteps with
          | .invalid error => .ok (db, .invalidEvidence error)
          | .aggregate steps =>
            match writeSteps now job db steps with
            | .error error => .error error
            | .ok db' =>
              .ok (finishTransition db' now job report
                (steps.foldl (fun map step => mapSet map step.stepIndex step.status.text)
                  (statusMap durableSteps)))
          | .direct =>
            -- the target row is locked, so the update finds it and its row count is not zero
            match writeStep db now job report.stepIndex report.status
                (if report.hasEvidence then some report.evidence else none) with
            | .error error => .error error
            | .ok db' =>
              .ok (finishTransition db' now job report
                (mapSet (statusMap durableSteps) report.stepIndex report.status.text))

structure Call where
  now : Timestamp
  selector : Selector
  report : StatusReport

/-- The tables after a call; a failed statement rolls the transaction back. -/
def transition (call : Call) : Database :=
  match transitionRemediationStatus db call.now call.selector call.report with
  | .ok (db', _) => db'
  | .error _ => db

/-- The outcome of a call, `none` when a statement failed. -/
def outcome (call : Call) : Option TransitionResult :=
  match transitionRemediationStatus db call.now call.selector call.report with
  | .ok (_, result) => some result
  | .error _ => none

end Talos.Remediation
