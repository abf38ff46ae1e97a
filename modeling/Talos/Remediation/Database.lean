import Talos.JavaScript.Json
import Talos.Relational.Table

/-!
# The remediation tables

`remediation_job` and `remediation_step` with the columns and the unique
indexes of the migrations, and the part of `rmm_devices` that a projection
reads. The indexes are fields of `Database`, so a state that breaks one cannot
be built: a statement that would break one raises `SqlError.uniqueViolation`
and the transaction around it leaves the state as it was.

A status column is free text, as it is in the schema. The statuses that a
report may carry are the type `ReportableStatus`; `text` is the word stored.
-/

namespace Talos.Remediation

open JavaScript Relational

/-- Milliseconds since the epoch. -/
abbrev Timestamp := ℤ

def patchInstallIntentId : String := "talos.patch.install"

inductive TerminalStatus where
  | completed
  | failed
  | cancelled
deriving DecidableEq

inductive ReportableStatus where
  | running
  | terminal (status : TerminalStatus)
deriving DecidableEq

def TerminalStatus.text : TerminalStatus → String
  | completed => "completed"
  | failed => "failed"
  | cancelled => "cancelled"

def ReportableStatus.text : ReportableStatus → String
  | running => "running"
  | terminal status => status.text

/-- `isTerminalRemediationStatus`, with the status that the text stands for. -/
def terminalStatus? (status : String) : Option TerminalStatus :=
  if status = "completed" then some .completed
  else if status = "failed" then some .failed
  else if status = "cancelled" then some .cancelled
  else none

def isTerminalRemediationStatus (status : String) : Bool :=
  (terminalStatus? status).isSome

variable (status : TerminalStatus)

@[simp] theorem terminalStatus?_text : terminalStatus? status.text = some status := by
  cases status <;> rfl

theorem terminalStatus?_eq_some {status : String} {terminal : TerminalStatus} :
    terminalStatus? status = some terminal ↔ status = terminal.text := by
  constructor
  · intro h
    unfold terminalStatus? at h
    split_ifs at h with h₁ h₂ h₃
    · cases h; exact h₁
    · cases h; exact h₂
    · cases h; exact h₃
  · rintro rfl
    exact terminalStatus?_text terminal

theorem isTerminal_iff {status : String} :
    isTerminalRemediationStatus status = true ↔ ∃ terminal : TerminalStatus,
      status = terminal.text := by
  simp only [isTerminalRemediationStatus, Option.isSome_iff_exists, terminalStatus?_eq_some]

@[simp] theorem isTerminal_text : isTerminalRemediationStatus status.text = true := by
  simp [isTerminalRemediationStatus]

theorem TerminalStatus.text_injective {a b : TerminalStatus} (h : a.text = b.text) : a = b := by
  have hb := congrArg terminalStatus? h
  simpa using hb

theorem TerminalStatus.text_ne_running : status.text ≠ "running" := by
  cases status <;> decide

structure Device where
  agentId : String
  organizationId : String
  lastSeen : Timestamp
deriving DecidableEq

structure Job where
  id : ℕ
  commandId : Option String
  organizationId : String
  agentId : String
  decisionId : Option ℤ
  intentId : String
  status : String
  dedupeKey : Option String
  requestedBy : String
  metadata : Json
  requestedAt : Timestamp
  startedAt : Option Timestamp
  finishedAt : Option Timestamp

structure Step where
  id : ℕ
  organizationId : String
  jobId : ℕ
  stepIndex : ℤ
  command : String
  status : String
  evidence : Option Json
  startedAt : Option Timestamp
  finishedAt : Option Timestamp

def Job.key (job : Job) : Option ℕ := some job.id

def Step.key (step : Step) : Option (ℕ × ℤ) := some (step.jobId, step.stepIndex)

def Device.key (device : Device) : Option String := some device.agentId

inductive SqlError where
  | uniqueViolation
  | foreignKeyViolation
  | invalidText
  | integerOutOfRange
deriving DecidableEq

/-- The tables with their unique indexes; of `routing_decision` only the
identifiers are kept, which a job row refers to. Identifiers are drawn from
sequences, so every stored one lies below the next value. -/
structure Database where
  devices : List Device
  decisions : List ℤ
  jobs : List Job
  steps : List Step
  nextJobId : ℕ
  nextStepId : ℕ
  devices_key : UniqueOn Device.key devices
  jobs_key : UniqueOn Job.key jobs
  jobs_commandId : UniqueOn Job.commandId jobs
  jobs_dedupeKey : UniqueOn Job.dedupeKey jobs
  jobs_lt : ∀ job ∈ jobs, job.id < nextJobId
  steps_key : UniqueOn Step.key steps

namespace Database

/-- An assignment to job rows that keeps every indexed column. -/
structure JobAssignment where
  apply : Job → Job
  id_eq : ∀ job, (apply job).id = job.id
  commandId_eq : ∀ job, (apply job).commandId = job.commandId
  dedupeKey_eq : ∀ job, (apply job).dedupeKey = job.dedupeKey

/-- An assignment to step rows that keeps the step's owner and index. -/
structure StepAssignment where
  apply : Step → Step
  jobId_eq : ∀ step, (apply step).jobId = step.jobId
  organizationId_eq : ∀ step, (apply step).organizationId = step.organizationId
  stepIndex_eq : ∀ step, (apply step).stepIndex = step.stepIndex

variable {jobs : List Job}

theorem update_id_lt {bound : ℕ} (h : ∀ job ∈ jobs, job.id < bound) (p : Job → Bool)
    (f : Job → Job) (hf : ∀ job, (f job).id = job.id) :
    ∀ job ∈ update jobs p f, job.id < bound := by
  intro job hjob
  obtain ⟨old, hold, rfl⟩ := mem_update.mp hjob
  have hlt := h old hold
  by_cases hp : p old = true
  · simpa [hp, hf old] using hlt
  · simpa [hp] using hlt

theorem taken_key_fresh {next : ℕ} (h : ∀ job ∈ jobs, job.id < next) {row : Job} :
    taken Job.key jobs { row with id := next } = false := by
  simp only [taken, Job.key, Option.isSome_some, Bool.true_and, Option.some.injEq,
    List.any_eq_false, decide_eq_true_eq]
  intro job hjob heq
  have hlt := h job hjob
  omega

theorem append_id_lt {next : ℕ} (h : ∀ job ∈ jobs, job.id < next) {row : Job} :
    ∀ job ∈ jobs ++ [{ row with id := next }], job.id < next + 1 := by
  intro job hjob
  rcases List.mem_append.mp hjob with hold | hnew
  · have hlt := h job hold
    omega
  · rw [List.mem_singleton.mp hnew]
    exact Nat.lt_succ_self next

variable (db : Database)

def updateJobs (p : Job → Bool) (set : JobAssignment) : Database :=
  { db with
    jobs := update db.jobs p set.apply
    jobs_key := db.jobs_key.update p set.apply fun job _ => by simp [Job.key, set.id_eq job]
    jobs_commandId := db.jobs_commandId.update p set.apply fun job _ => set.commandId_eq job
    jobs_dedupeKey := db.jobs_dedupeKey.update p set.apply fun job _ => set.dedupeKey_eq job
    jobs_lt := update_id_lt db.jobs_lt p set.apply set.id_eq }

def updateSteps (p : Step → Bool) (set : StepAssignment) : Database :=
  { db with
    steps := update db.steps p set.apply
    steps_key := db.steps_key.update p set.apply fun step _ => by
      simp [Step.key, set.jobId_eq step, set.stepIndex_eq step] }

/-- The foreign keys of a job row: the device within its organization, and the
decision when there is one. -/
def references (row : Job) : Bool :=
  db.devices.any (fun device =>
    device.organizationId = row.organizationId && device.agentId = row.agentId) &&
  row.decisionId.all fun decisionId => db.decisions.contains decisionId

/-- `INSERT INTO remediation_job`: the row takes the next identifier. The values
that a sequence skips for a rejected row are not modelled. -/
def insertJob (values : Job) : Except SqlError (Database × Job) :=
  let row := { values with id := db.nextJobId }
  if h : taken Job.commandId db.jobs row = false ∧ taken Job.dedupeKey db.jobs row = false then
    if db.references row then
      .ok ({ db with
        jobs := db.jobs ++ [row]
        nextJobId := db.nextJobId + 1
        jobs_key := db.jobs_key.append_singleton (taken_key_fresh db.jobs_lt)
        jobs_commandId := db.jobs_commandId.append_singleton h.1
        jobs_dedupeKey := db.jobs_dedupeKey.append_singleton h.2
        jobs_lt := append_id_lt db.jobs_lt }, row)
    else .error .foreignKeyViolation
  else .error .uniqueViolation

/-- `INSERT INTO remediation_step` for a job that is stored. -/
def insertStep (values : Step) : Except SqlError Database :=
  let row := { values with id := db.nextStepId }
  if h : taken Step.key db.steps row = false then
    .ok { db with
      steps := db.steps ++ [row]
      nextStepId := db.nextStepId + 1
      steps_key := db.steps_key.append_singleton h }
  else .error .uniqueViolation

/-- `UPDATE rmm_devices SET last_seen` by agent. -/
def touchDevice (agentId : String) (lastSeen : Timestamp) : Database :=
  { db with
    devices := update db.devices (fun device => device.agentId = agentId)
      fun device => { device with lastSeen := lastSeen }
    devices_key := db.devices_key.update _ _ fun _ _ => rfl }

/-- The rows that a status report reads as the durable steps of a job. -/
def stepsOf (job : Job) : List Step :=
  db.steps.filter fun step => step.jobId = job.id && step.organizationId = job.organizationId

variable (db : Database)

@[simp] theorem updateJobs_jobs (p : Job → Bool) (set : JobAssignment) :
    (db.updateJobs p set).jobs = update db.jobs p set.apply := rfl

@[simp] theorem updateJobs_steps (p : Job → Bool) (set : JobAssignment) :
    (db.updateJobs p set).steps = db.steps := rfl

@[simp] theorem updateSteps_jobs (p : Step → Bool) (set : StepAssignment) :
    (db.updateSteps p set).jobs = db.jobs := rfl

@[simp] theorem updateSteps_steps (p : Step → Bool) (set : StepAssignment) :
    (db.updateSteps p set).steps = update db.steps p set.apply := rfl

theorem mem_stepsOf {db : Database} {job : Job} {step : Step} : step ∈ db.stepsOf job ↔
      step ∈ db.steps ∧ step.jobId = job.id ∧ step.organizationId = job.organizationId := by
  simp [stepsOf]

theorem job_eq_of_id {a b : Job} (ha : a ∈ db.jobs) (hb : b ∈ db.jobs) (h : a.id = b.id) : a = b :=
  db.jobs_key.eq_of_key (k := b.id) ha hb (by simp [Job.key, h]) rfl

theorem step_eq_of_index {job : Job} {a b : Step} (ha : a ∈ db.stepsOf job)
    (hb : b ∈ db.stepsOf job) (h : a.stepIndex = b.stepIndex) : a = b := by
  obtain ⟨hma, hja, -⟩ := mem_stepsOf.mp ha
  obtain ⟨hmb, hjb, -⟩ := mem_stepsOf.mp hb
  refine db.steps_key.eq_of_key (k := (job.id, b.stepIndex)) hma hmb ?_ ?_
  · simp [Step.key, hja, h]
  · simp [Step.key, hjb]

end Database

end Talos.Remediation
