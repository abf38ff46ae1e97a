import Talos.Remediation.Database

/-!
# Reading a remediation status report

`terminalStepProjection` decides what a terminal report says about the durable
steps of its job: it is about the reported step alone, or its evidence lists
step outcomes and settles every durable step at once, or it is rejected with a
message. Nothing here reads or writes the database.
-/

namespace Talos.Remediation

open JavaScript

structure StatusReport where
  status : ReportableStatus
  stepIndex : ℕ
  hasEvidence : Bool
  evidence : Json

/-- A number between 0 and 1000, where a missing value is 0. -/
def readStepIndex : Option Json → Option ℕ
  | none => some 0
  | some .null => some 0
  | some (.str "") => some 0
  | some value =>
    value.toNumber.toInt?.bind fun n => if 0 ≤ n ∧ n ≤ 1000 then some n.toNat else none

def readRequiredStepIndex : Option Json → Option ℕ
  | none => none
  | some .null => none
  | some (.str "") => none
  | some value => readStepIndex (some value)

def stepTransitionAllowed (currentStatus : String) (nextStatus : ReportableStatus) : Bool :=
  if currentStatus = nextStatus.text then true
  else if currentStatus = "pending" then true
  else currentStatus = "running" && isTerminalRemediationStatus nextStatus.text

def deriveJobStatus (stepStatuses : List String) : ReportableStatus :=
  if !stepStatuses.all isTerminalRemediationStatus then .running
  else if stepStatuses.contains "failed" then .terminal .failed
  else if stepStatuses.contains "cancelled" then .terminal .cancelled
  else .terminal .completed

structure TerminalStepProjection where
  stepIndex : ℤ
  status : TerminalStatus
  evidence : Record

inductive StepProjection where
  | direct
  | invalid (error : String)
  | aggregate (steps : List TerminalStepProjection)

def readReportedStep (durableSteps : List Step) (reported : List TerminalStepProjection)
    (value : Json) : Except String TerminalStepProjection :=
  match asRecord (some value) with
  | none => .error "terminal evidence.steps entries must be objects"
  | some record =>
    match readRequiredStepIndex (coalesce (record.get? "stepIndex") (record.get? "step_index")) with
    | none => .error "terminal evidence stepIndex must be an integer between 0 and 1000"
    | some stepIndex =>
      match (readString (record.get? "status")).bind terminalStatus? with
      | none => .error "terminal evidence step status must be completed, failed, or cancelled"
      | some status =>
        if !durableSteps.any (·.stepIndex = stepIndex) then
          .error ("terminal evidence references unknown step " ++ toString stepIndex)
        else if reported.any (·.stepIndex = stepIndex) then
          .error ("terminal evidence contains duplicate step " ++ toString stepIndex)
        else
          let named := record.set "stepIndex" (.num (.ofInt stepIndex))
          let normalized := (named.set "status" (.str status.text)).delete "step_index"
          .ok ⟨stepIndex, status, normalized⟩

def readReportedSteps (durableSteps : List Step) :
    List TerminalStepProjection → List Json → Except String (List TerminalStepProjection)
  | reported, [] => .ok reported
  | reported, value :: values =>
    match readReportedStep durableSteps reported value with
    | .error error => .error error
    | .ok step => readReportedSteps durableSteps (reported ++ [step]) values

/-- What a terminal report makes of one durable step: its reported outcome, or
cancelled when the report ends the job without it. -/
def projectDurableStep (reportedStatus : TerminalStatus) (reported : List TerminalStepProjection)
    (durableStep : Step) : Except String TerminalStepProjection :=
  let index := toString durableStep.stepIndex
  match reported.find? (·.stepIndex = durableStep.stepIndex) with
  | some step =>
    if !stepTransitionAllowed durableStep.status (.terminal step.status) then
      .error ("cannot transition remediation step " ++ index ++ " from " ++ durableStep.status
        ++ " to " ++ step.status.text)
    else .ok step
  | none =>
    if reportedStatus = .completed then
      .error ("completed terminal evidence is missing durable step " ++ index)
    else if !stepTransitionAllowed durableStep.status (.terminal .cancelled) then
      .error ("terminal evidence is missing already-terminal step " ++ index)
    else
      .ok ⟨durableStep.stepIndex, .cancelled,
        [("stepIndex", .num (.ofInt durableStep.stepIndex)), ("status", .str "cancelled"),
          ("reason", .str "not_executed_after_terminal_outcome")]⟩

def projectDurableSteps (reportedStatus : TerminalStatus) (reported : List TerminalStepProjection) :
    List Step → Except String (List TerminalStepProjection)
  | [] => .ok []
  | durableStep :: rest =>
    match projectDurableStep reportedStatus reported durableStep with
    | .error error => .error error
    | .ok step =>
      match projectDurableSteps reportedStatus reported rest with
      | .error error => .error error
      | .ok steps => .ok (step :: steps)

/-- Terminal evidence without a `steps` property speaks about the reported step
alone, and may repeat the report's own status and index only. -/
def directProjection (evidence : Option Record) (reportedStatus : TerminalStatus)
    (reportedStepIndex : ℕ) : StepProjection :=
  let evidenceStatus := readString (evidence.bind (·.get? "status"))
  let evidenceStepIndex := readRequiredStepIndex
    (coalesce (evidence.bind (·.get? "stepIndex")) (evidence.bind (·.get? "step_index")))
  if evidenceStatus.isSome && evidenceStatus ≠ some reportedStatus.text then
    .invalid "terminal evidence status does not match the report status"
  else if evidenceStepIndex.isSome && evidenceStepIndex ≠ some reportedStepIndex then
    .invalid "terminal evidence stepIndex does not match the report stepIndex"
  else .direct

def aggregateProjection (values : List Json) (reportedStatus : TerminalStatus)
    (reportedStepIndex : ℕ) (durableSteps : List Step) : StepProjection :=
  match readReportedSteps durableSteps [] values with
  | .error error => .invalid error
  | .ok reported =>
    if !reported.any (·.stepIndex = reportedStepIndex) then
      .invalid ("terminal evidence must include the reported step " ++ toString reportedStepIndex)
    else
      match projectDurableSteps reportedStatus reported durableSteps with
      | .error error => .invalid error
      | .ok projectedSteps =>
        let projectedJobStatus := deriveJobStatus (projectedSteps.map (·.status.text))
        if projectedJobStatus ≠ .terminal reportedStatus then
          .invalid ("terminal evidence resolves to " ++ projectedJobStatus.text ++ ", not "
            ++ reportedStatus.text)
        else .aggregate projectedSteps

def terminalStepProjection (evidence : Json) (reportedStatus : TerminalStatus)
    (reportedStepIndex : ℕ) (durableSteps : List Step) : StepProjection :=
  match (asRecord (some evidence)).bind (·.get? "steps") with
  | none => directProjection (asRecord (some evidence)) reportedStatus reportedStepIndex
  | some (.arr values) => aggregateProjection values reportedStatus reportedStepIndex durableSteps
  | some _ => .invalid "terminal evidence.steps must be an array when present"

end Talos.Remediation
