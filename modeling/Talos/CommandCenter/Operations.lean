import Talos.CommandCenter.Records
import Talos.Interactive.Program

/-!
# What the API and the runners do

The handlers of the API and the jobs of the runners are programs. An operation is a
statement on the tables, an access to the maps of a runner under their locks, or
something whose outcome is open: the model that proposes commands, the shell on the
device, the network. A handler that goes on after a statement knows the time at which it
does.

A runner talks to the API by requests, each of which may fail to get there, and whose
response may be lost.
-/

namespace Talos.CommandCenter

open Interactive Program JavaScript

/-- A text as `randomUUID()` gives it. -/
structure Uuid where
  text : String
  trimmed : trim text = text
  nonempty : text ≠ ""

theorem Uuid.clean (id : Uuid) : stringValue (some id.text) = some id.text := by
  simp [stringValue, id.trimmed, id.nonempty]

/-! ## Requests of a runner -/

/-- What every callback of a job names. -/
structure CallbackSource where
  runnerId : Option String
  leaseId : Option String
  eventKey : Option String

structure EventInput extends CallbackSource where
  eventType : Option String
  commandApprovalId : Option String
  /-- The approval that the payload names. -/
  payloadApprovalId : Option String
  terminal : Bool
  /-- The number, without its fraction. -/
  sequence : Option ℤ

structure StatusInput extends CallbackSource where
  status : Option String

structure ApprovalInput extends CallbackSource where
  /-- The number, without its fraction. -/
  turnIndex : Option ℤ
  command : Option String
  explanation : Option String
  risk : Option String

structure ExecutionInput extends CallbackSource where
  status : Option String

/-- The routes of the API that runners call. -/
inductive Callback where
  | acquireLease (jobId : String) (runnerId : Option String)
  | heartbeatLease (jobId leaseId : String) (runnerId : Option String)
  | releaseLease (jobId leaseId : String) (runnerId : Option String)
  | event (jobId : String) (input : EventInput)
  | status (jobId : String) (input : StatusInput)
  | createApproval (jobId : String) (input : ApprovalInput)
  | getApproval (jobId approvalId : String)
  | approvalResult (jobId approvalId : String) (input : ExecutionInput)

structure LeaseSummary where
  accepted : Bool
  reason : Option String
  leaseId : Option String
  leaseExpiresAt : Option Timestamp
  cancelRequestedAt : Option Timestamp
deriving DecidableEq

/-- What the response to a request that succeeds carries. -/
@[reducible] def Callback.Reply : Callback → Type
  | .acquireLease .. | .heartbeatLease .. | .releaseLease .. => LeaseSummary
  | .event .. => RunnerEvent
  | .status .. => Job
  | .createApproval .. | .getApproval .. | .approvalResult .. => CommandApproval

/-! ## What a job meets -/

/-- `AiShellAssistResponse`. -/
structure Proposal where
  action : String
  command : String
  explanation : String
  risk : String
  message : String

/-- `ShellCommandWaitOutcome`. -/
inductive CommandWait where
  | completed
  | checkpoint

/-- What ends the wait for the proposal at a checkpoint: the command itself, its failure,
or the proposal. -/
inductive CheckpointOutcome where
  | completed
  | failed (e : Failure)
  | proposed (proposal : Except Failure Proposal)

/-- The next thing that a job without commands does. -/
inductive DesktopStep where
  | report (status : String)
  | finish (outcome : Except Failure Unit)

/-! ## Operations -/

inductive Op where
  | query (statement : Statement)
  | clock
  | uuid
  /-- The id of a new row. -/
  | cuid
  /-- `appendCommandCenterMessage`; the conversation may have gone. -/
  | appendMessage (conversationId : String)
  /-- The lengths of the texts in the payloads of events. -/
  | outputLengths
  /-- `attachGeneratedSecretsToRunnerJob`. -/
  | attachSecrets (jobId : String)
  /-- The start request to a runner, and the id that it answers with. -/
  | startRunner (jobId : String)
  /-- The stop request to the runner, and whether it does not know the job. -/
  | stopRunner (jobId : String)
  /-- A request of a runner gets to the API. -/
  | send (runner : ℕ) (callback : Callback)
  /-- The API responds, and whether the response gets back. -/
  | respond (callback : Callback) (reply : callback.Reply)
  /-- The jobs that are active at a runner. -/
  | activeJobs (runner : ℕ)
  /-- Makes a job active unless it is already or the runner is full. -/
  | reserveJob (runner : ℕ) (jobId : String) (maxConcurrentJobs : ℕ)
  /-- The lease in the record of a job, set and read. -/
  | recordJob (runner : ℕ) (jobId leaseId : String)
  | jobLeaseId (runner : ℕ) (jobId : String)
  | removeActive (runner : ℕ) (jobId : String)
  /-- `tokio::spawn` of the job. -/
  | spawnJob (runner : ℕ) (jobId leaseId : String)
  /-- A job that the runner has spawned, with its lease. -/
  | spawnedJob (runner : ℕ) (n : ℕ)
  | isCancelled (runner : ℕ) (jobId : String)
  /-- `ensure_ai_runner_approval`. -/
  | endpointApproval (jobId : String)
  | desktopStep (jobId : String)
  | openShell (jobId : String)
  | requestProposal (jobId : String)
  /-- The two checks of the secrets that a command refers to. -/
  | validateSecrets (command : String)
  /-- The secrets of the command that are not in the shell yet. -/
  | missingSecrets (command : String)
  | materializeSecret (secretHandle : String)
  | startCommand (jobId : String) (turnIndex : ℕ) (command : String)
  | awaitCommand
  | checkpointProposal (jobId : String)
  | sendInterrupt

@[reducible] def Op.Answer : Op → Type
  | .query statement => Except Failure (statement.Result × Timestamp)
  | .clock => Timestamp
  | .uuid => Uuid
  | .cuid => String
  | .appendMessage _ => Except Failure Bool
  | .outputLengths => String → ℕ
  | .attachSecrets _ => Except Failure Unit
  | .startRunner _ => Except Failure (Option String)
  | .stopRunner _ => Bool
  | .send .. | .respond .. => Bool
  | .activeJobs _ => List String
  | .reserveJob .. => Bool
  | .recordJob .. | .removeActive .. | .spawnJob .. => Unit
  | .jobLeaseId .. => Option String
  | .spawnedJob .. => Option (String × String)
  | .isCancelled .. => Bool
  | .desktopStep _ => DesktopStep
  | .endpointApproval _ | .openShell _ | .validateSecrets _ | .materializeSecret _
  | .startCommand .. | .sendInterrupt => Except Failure Unit
  | .missingSecrets _ => List String
  | .requestProposal _ => Except Failure Proposal
  | .awaitCommand => Except Failure CommandWait
  | .checkpointProposal _ => CheckpointOutcome

abbrev Handler := Program Op.Answer Failure

abbrev History := List (Event Op.Answer)

def ask (op : Op) : Handler op.Answer := perform op

/-- A statement whose error is thrown, with the time at which the handler goes on. -/
def queryAt (statement : Statement) : Handler (statement.Result × Timestamp) := do
  let outcome ← ask (.query statement)
  ofOutcome outcome

def query (statement : Statement) : Handler statement.Result := do
  let result ← queryAt statement
  pure result.1

def orFail {α : Type} (error : Failure) : Option α → Handler α
  | some value => pure value
  | none => fail error

/-! ## Leases and events of a callback -/

/-- The lease of the callback is that of the job, and has not expired. -/
def assertCallbackLease (job : Job) (now : Timestamp) (source : CallbackSource) :
    Except Failure Unit :=
  let leaseId := stringValue source.leaseId
  match stringValue job.leaseId with
  | none =>
    if leaseId.isSome then .error (.text "AI runner callback lease mismatch") else .ok ()
  | some _ =>
    match activeLeaseId job now with
    | none => .error (.text "AI runner callback lease expired")
    | some active =>
      if leaseId = some active then .ok ()
      else .error (.text "AI runner callback lease mismatch")

/-- The error of an event that could not be created, unless it is there by now. -/
def refindAiRunnerEvent (event : RunnerEvent) (e : Failure) : Handler (RunnerEvent × Bool) :=
  if e.uniqueConstraint then do
    let record ← query (.findEvent event.jobId event.eventKey)
    let record ← orFail e record
    pure (record, false)
  else fail e

def insertAiRunnerEvent (event : RunnerEvent) : Handler (RunnerEvent × Bool) := do
  let created ← (query (.createEvent event)).attempt
  match created with
  | .ok record => pure (record, true)
  | .error e => refindAiRunnerEvent event e

/-- The event with the key of the job, and whether it was created. -/
def createAiRunnerEvent (jobId eventKey eventType : String) (commandApprovalId : Option String) :
    Handler (RunnerEvent × Bool) := do
  let existing ← query (.findEvent jobId eventKey)
  match existing with
  | some record => pure (record, false)
  | none => insertAiRunnerEvent ⟨jobId, eventKey, eventType, commandApprovalId⟩

/-- A failure is only logged. -/
def linkAiRunnerEvent (event : RunnerEvent) (commandApprovalId : String) : Handler Unit := do
  let _ ← (query (.linkEvent event.jobId event.eventKey commandApprovalId)).attempt
  pure ()

/-! ## Rules -/

section Safe

variable {α : Type} {Q : History → Op → Prop} {h : History}

@[simp] theorem safe_queryAt {s : Statement}
    {R : History → Except Failure (no_index s.Result × Timestamp) → Prop} :
    @Safe Op Op.Answer Failure (no_index s.Result × Timestamp) Q h (queryAt s) R ↔ Q h (.query s) ∧
        (∀ value now, R (h ++ [⟨.query s, .ok (value, now)⟩]) (.ok (value, now))) ∧
        ∀ e, R (h ++ [⟨.query s, .error e⟩]) (.error e) := by
  constructor
  · rintro ⟨hop, hnext⟩
    exact ⟨hop, fun value now => hnext (.ok (value, now)), fun e => hnext (.error e)⟩
  · rintro ⟨hop, hok, herror⟩
    refine ⟨hop, fun outcome => ?_⟩
    cases outcome with
    | ok value => exact hok value.1 value.2
    | error e => exact herror e

@[simp] theorem safe_query {s : Statement}
    {R : History → Except Failure (no_index s.Result) → Prop} :
    @Safe Op Op.Answer Failure (no_index s.Result) Q h (query s) R ↔ Q h (.query s) ∧
        (∀ value now, R (h ++ [⟨.query s, .ok (value, now)⟩]) (.ok value)) ∧
        ∀ e, R (h ++ [⟨.query s, .error e⟩]) (.error e) := by
  rw [query, safe_bind_iff, safe_queryAt]
  exact Iff.rfl

@[simp] theorem safe_orFail {error : Failure} {value : Option α}
    {R : History → Except Failure α → Prop} :
    Safe Q h (orFail error value) R ↔
      (∀ a, value = some a → R h (.ok a)) ∧ (value = none → R h (.error error)) := by
  cases value <;> simp [orFail]

end Safe

section Confined

variable {α : Type} {P : Op → Prop}

@[simp] theorem confined_ask {op : Op} {S : Except Failure (no_index op.Answer) → Prop} :
    @Confined Op Op.Answer Failure (no_index op.Answer) P (ask op) S ↔
      P op ∧ ∀ answer, S (.ok answer) := Iff.rfl

@[simp] theorem confined_queryAt {s : Statement}
    {S : Except Failure (no_index s.Result × Timestamp) → Prop} :
    @Confined Op Op.Answer Failure (no_index s.Result × Timestamp) P (queryAt s) S ↔
      P (.query s) ∧ (∀ value now, S (.ok (value, now))) ∧ ∀ e, S (.error e) := by
  constructor
  · rintro ⟨hop, hnext⟩
    exact ⟨hop, fun value now => hnext (.ok (value, now)), fun e => hnext (.error e)⟩
  · rintro ⟨hop, hok, herror⟩
    refine ⟨hop, fun outcome => ?_⟩
    cases outcome with
    | ok value => exact hok value.1 value.2
    | error e => exact herror e

@[simp] theorem confined_query {s : Statement} {S : Except Failure (no_index s.Result) → Prop} :
    @Confined Op Op.Answer Failure (no_index s.Result) P (query s) S ↔
      P (.query s) ∧ (∀ value, S (.ok value)) ∧ ∀ e, S (.error e) := by
  rw [query, confined_bind_iff, confined_queryAt]
  constructor
  · rintro ⟨hop, hok, herror⟩
    exact ⟨hop, fun value => hok value 0, herror⟩
  · rintro ⟨hop, hok, herror⟩
    exact ⟨hop, fun value _ => hok value, herror⟩

@[simp] theorem confined_orFail {error : Failure} {value : Option α} {S : Except Failure α → Prop} :
    Confined P (orFail error value) S ↔
      (∀ a, value = some a → S (.ok a)) ∧ (value = none → S (.error error)) := by
  cases value <;> simp [orFail]

end Confined

end Talos.CommandCenter
