import Talos.JavaScript.Date
import Talos.Remediation.Frozen

/-!
# Claiming remediation jobs

The generic claim route picks queued jobs of one agent, oldest first, skips the
rows that another transaction has locked, and marks them running in the same
statement; the response is built from the claimed rows and the step rows.
`FOR UPDATE SKIP LOCKED` is the argument `locked`: the identifiers that are
locked elsewhere at the time.

`Machine` puts the three operations on the tables together, with the log of
what the claim route has handed out. A claimed job has started, and no
operation takes a started job back, so nothing is handed out twice.
-/

namespace Talos.Remediation

open JavaScript Relational Database Transition

/-! ## The claim statement -/

def readLimit (value : Option Json) : ℕ :=
  match value.bind fun value => value.toNumber.toInt? with
  | none => 1
  | some parsed => (min 10 (max 1 parsed)).toNat

variable (db : Database)

/-- The `WHERE` clause of the candidates. -/
def claimable (agentId : String) (job : Job) : Bool :=
  job.status = "queued" && job.agentId = agentId && job.intentId ≠ patchInstallIntentId &&
    job.commandId.isSome && db.steps.any fun step => step.jobId = job.id

/-- `ORDER BY requested_at ASC, id ASC`. -/
def sortJobs (jobs : List Job) : List Job :=
  jobs.insertionSort fun a b =>
    a.requestedAt < b.requestedAt ∨ (a.requestedAt = b.requestedAt ∧ a.id ≤ b.id)

/-- A locked row is passed over before the limit counts. -/
def candidates (agentId : String) (limit : ℕ) (locked : List ℕ) : List Job :=
  (sortJobs (db.jobs.filter fun job => claimable db agentId job && !locked.contains job.id)).take
    limit

def claimWrite (now : Timestamp) : JobAssignment where
  apply job :=
    { job with
      status := "running"
      startedAt := job.startedAt.orElse fun _ => some now
      finishedAt := none }
  id_eq _ := rfl
  commandId_eq _ := rfl
  dedupeKey_eq _ := rfl

/-- `ORDER BY job_id ASC, step_index ASC`. -/
def sortStepRows (steps : List Step) : List Step :=
  steps.insertionSort fun a b => a.jobId < b.jobId ∨ (a.jobId = b.jobId ∧ a.stepIndex ≤ b.stepIndex)

structure Claimed where
  jobs : List Job
  steps : List Step

def claimJobs (now : Timestamp) (agentId : String) (limit : ℕ) (locked : List ℕ) :
    Except SqlError (Database × Claimed) :=
  if !Json.textStorable agentId then .error .invalidText
  else
    let chosen := candidates db agentId limit locked
    .ok (db.updateJobs (fun job => chosen.any fun candidate => candidate.id = job.id)
        (claimWrite now),
      { jobs := chosen.map (claimWrite now).apply
        steps := sortStepRows (db.steps.filter fun step =>
          chosen.any fun candidate => candidate.id = step.jobId) })

/-! ## The response -/

/-- The reader of the dispatch module: unlike that of the projection it does not
take a blank text for zero. -/
def parseDispatchInteger : Option Json → Option ℤ
  | some (.num value) => value.toInt?
  | some (.str value) => if trim value = "" then none else (Number.ofText value).toInt?
  | _ => none

structure DispatchSnapshot where
  metadata : Record
  execution : Record
  steps : List Json

def remediationDispatchSnapshot (metadata : Json) : DispatchSnapshot :=
  let persisted := (asRecord (some metadata)).getD []
  let snapshot := asRecord (persisted.get? remediationDispatchSnapshotKey)
  { metadata := persisted.delete remediationDispatchSnapshotKey
    execution := (asRecord (snapshot.bind (·.get? "execution"))).getD []
    steps := asArray (snapshot.bind (·.get? "steps")) }

/-- The entries of the snapshot by step index, from position `i` on. A later
entry replaces an earlier one of the same index. -/
def frozenStepsByIndex : ℕ → List Json → List (ℤ × Record) → List (ℤ × Record)
  | _, [], frozen => frozen
  | i, value :: values, frozen =>
    match asRecord (some value) with
    | none => frozenStepsByIndex (i + 1) values frozen
    | some record =>
      let stepIndex := (parseDispatchInteger
        (coalesce (record.get? "stepIndex") (record.get? "step_index"))).getD i
      frozenStepsByIndex (i + 1) values
        ((stepIndex, record) :: frozen.filter fun entry => entry.1 ≠ stepIndex)

structure DispatchJob where
  commandId : Option String
  organizationId : String
  agentId : String
  intentId : String
  decisionId : Option String
  dedupeKey : Option String
  requestedBy : String
  requestedAt : Option String
  approvalState : String
  metadata : Record
  steps : List Record
  execution : Record

/-- `{ ...record, ...properties }`. -/
def spread (record properties : Record) : Record :=
  properties.foldl (fun record property => record.set property.1 property.2) record

def dispatchStep (frozen : List (ℤ × Record)) (step : Step) : Record :=
  spread (((frozen.find? fun entry => entry.1 = step.stepIndex).map Prod.snd).getD [])
    [("stepIndex", .num (.ofInt step.stepIndex)), ("command", .str step.command),
      ("status", .str step.status), ("evidence", step.evidence.getD .null)]

def dispatchJob (stepRows : List Step) (job : Job) : DispatchJob :=
  let snapshot := remediationDispatchSnapshot job.metadata
  let frozen := frozenStepsByIndex 0 snapshot.steps []
  { commandId := job.commandId
    organizationId := job.organizationId
    agentId := job.agentId
    intentId := job.intentId
    decisionId := job.decisionId.map toString
    dedupeKey := job.dedupeKey
    requestedBy := job.requestedBy
    requestedAt := Date.toISOString job.requestedAt
    approvalState := "approved"
    metadata := snapshot.metadata
    steps := (sortSteps (stepRows.filter fun step => step.jobId = job.id)).map (dispatchStep frozen)
    execution := spread [("maxRetries", .num (.ofInt 0)), ("timeoutSeconds", .num (.ofInt 300)),
      ("stopOnFailure", .bool true)] snapshot.execution }

def buildRemediationDispatchJobs (jobRows : List Job) (stepRows : List Step) : List DispatchJob :=
  (sortJobs jobRows).map (dispatchJob stepRows)

inductive ClaimResponse where
  | badRequest (error : String)
  | serverError (error : SqlError)
  | jobs (jobs : List DispatchJob)

structure ClaimRequest where
  now : Timestamp
  agentId : String
  body : Option Json
  locked : List ℕ

/-- `POST /agents/:agentId/jobs/claim`. -/
def claimRoute (request : ClaimRequest) : Database × ClaimResponse :=
  match readString (some (.str request.agentId)) with
  | none => (db, .badRequest "agentId is required")
  | some agentId =>
    let limit := readLimit ((asRecord request.body).bind (·.get? "limit"))
    match claimJobs db request.now agentId limit request.locked with
    | .error error => (db, .serverError error)
    | .ok (db', claimed) => (db', .jobs (buildRemediationDispatchJobs claimed.jobs claimed.steps))

/-! ## The tables under all three operations -/

/-- A job that a claim handed out: the row and its step rows as they were just
before. -/
structure Delivery where
  agentId : String
  job : Job
  steps : List Step

structure Machine where
  db : Database
  delivered : List Delivery
  sent : List DispatchJob

inductive Action where
  | project (projection : Projection)
  | claim (request : ClaimRequest)
  | report (call : Call)

def ClaimResponse.sent : ClaimResponse → List DispatchJob
  | .jobs dispatched => dispatched
  | _ => []

def deliveries (request : ClaimRequest) : List Delivery :=
  match readString (some (.str request.agentId)) with
  | none => []
  | some agentId =>
    if !Json.textStorable agentId then []
    else
      (candidates db agentId (readLimit ((asRecord request.body).bind (·.get? "limit")))
        request.locked).map fun job => ⟨agentId, job, rowsOf db job.id⟩

def Machine.step (machine : Machine) : Action → Machine
  | .project projection => { machine with db := project machine.db projection }
  | .report call => { machine with db := transition machine.db call }
  | .claim request =>
    { db := (claimRoute machine.db request).1
      delivered := machine.delivered ++ deliveries machine.db request
      sent := machine.sent ++ (claimRoute machine.db request).2.sent }

/-- The state from which a run starts: any tables, nothing handed out yet. -/
def Machine.initial : Machine := ⟨db, [], []⟩

/-! ## What one claim hands out -/

variable {db : Database}

theorem mem_candidates {agentId : String} {limit : ℕ} {locked : List ℕ} {job : Job}
    (h : job ∈ candidates db agentId limit locked) :
    job ∈ db.jobs ∧ claimable db agentId job = true := by
  have hsorted := List.mem_of_mem_take h
  have hfiltered : job ∈ db.jobs.filter fun job =>
      claimable db agentId job && !locked.contains job.id := (List.mem_insertionSort _).mp hsorted
  obtain ⟨hmem, hboth⟩ := List.mem_filter.mp hfiltered
  exact ⟨hmem, (Bool.and_eq_true _ _ ▸ hboth).1⟩

theorem jobs_nodup (db : Database) : (db.jobs.map Job.id).Nodup := by
  rw [List.Nodup, List.pairwise_map]
  refine db.jobs_key.imp ?_
  intro a b hne heq
  exact hne a.id rfl (by rw [Job.key, heq])

theorem candidates_nodup (db : Database) (agentId : String) (limit : ℕ) (locked : List ℕ) :
    ((candidates db agentId limit locked).map Job.id).Nodup := by
  have hfiltered : ((db.jobs.filter fun job =>
      claimable db agentId job && !locked.contains job.id).map Job.id).Nodup :=
    (jobs_nodup db).sublist (List.filter_sublist.map Job.id)
  have hsorted : ((sortJobs (db.jobs.filter fun job =>
      claimable db agentId job && !locked.contains job.id)).map Job.id).Nodup :=
    ((List.perm_insertionSort _ _).map Job.id).nodup_iff.mpr hfiltered
  exact hsorted.sublist ((List.take_sublist _ _).map Job.id)

/-- A claim answers nothing and changes nothing, or it hands out its candidates. -/
theorem claimRoute_cases (db : Database) (request : ClaimRequest) :
    (deliveries db request = [] ∧ (claimRoute db request).1 = db ∧
      (claimRoute db request).2.sent = []) ∨
    ∃ agentId limit, deliveries db request = (candidates db agentId limit request.locked).map
          (fun job => ⟨agentId, job, rowsOf db job.id⟩) ∧
      (claimRoute db request).1.jobs = update db.jobs
        (fun job => (candidates db agentId limit request.locked).any fun candidate =>
          candidate.id = job.id) (claimWrite request.now).apply ∧
      ∃ steps, (claimRoute db request).2.sent = buildRemediationDispatchJobs
        ((candidates db agentId limit request.locked).map (claimWrite request.now).apply)
        steps := by
  unfold deliveries claimRoute
  cases readString (some (.str request.agentId)) with
  | none => exact Or.inl ⟨rfl, rfl, rfl⟩
  | some agentId =>
    by_cases htext : Json.textStorable agentId = true
    · right
      simp only [claimJobs, htext, Bool.not_true, Bool.false_eq_true, if_false]
      exact ⟨agentId, _, rfl, rfl, _, rfl⟩
    · left
      simp [claimJobs, htext, ClaimResponse.sent]

theorem buildRemediationDispatchJobs_commandIds (jobRows : List Job) (stepRows : List Step) :
    ((buildRemediationDispatchJobs jobRows stepRows).map DispatchJob.commandId).Perm
      (jobRows.map Job.commandId) := by
  have hmap : (buildRemediationDispatchJobs jobRows stepRows).map DispatchJob.commandId =
      (sortJobs jobRows).map Job.commandId := by
    rw [buildRemediationDispatchJobs, List.map_map]
    rfl
  rw [hmap]
  exact (List.perm_insertionSort _ jobRows).map Job.commandId

/-! ## A started job stays started -/

theorem isStarted_running : isStarted "running" = true := rfl

theorem isStarted_text (status : ReportableStatus) : isStarted status.text = true := by
  cases status with
  | running => rfl
  | terminal status => cases status <;> rfl

theorem not_isStarted_queued : isStarted "queued" = false := by decide

/-- The job with this identifier has started. -/
def Started (db : Database) (jobId : ℕ) : Prop :=
  ∃ job ∈ db.jobs, job.id = jobId ∧ isStarted job.status = true

variable {jobId : ℕ}

theorem project_started (h : Started db jobId) (projection : Projection) :
    Started (project db projection) jobId := by
  obtain ⟨job, hjob, hid, hstarted⟩ := h
  rcases project_cases db projection with hsame | ⟨middle, row, hprojected⟩
  · rw [hsame]
    exact ⟨job, hjob, hid, hstarted⟩
  · exact ⟨job, hprojected.job_mem hjob hstarted, hid, hstarted⟩

theorem transition_started (h : Started db jobId) (call : Call) :
    Started (transition db call) jobId := by
  obtain ⟨job, hjob, hid, hstarted⟩ := h
  rcases transition_cases db call with ⟨hsame, -⟩ | ⟨selected, writes, haccepted⟩
  · rw [hsame]
    exact ⟨job, hjob, hid, hstarted⟩
  · rcases haccepted.job_eq hjob with ⟨-, hmem⟩ | ⟨rfl, hmem⟩
    · exact ⟨job, hmem, hid, hstarted⟩
    · exact ⟨_, hmem, hid, isStarted_text _⟩

theorem claimRoute_started (h : Started db jobId) (request : ClaimRequest) :
    Started (claimRoute db request).1 jobId := by
  obtain ⟨job, hjob, hid, hstarted⟩ := h
  rcases claimRoute_cases db request with ⟨-, hsame, -⟩ | ⟨agentId, limit, -, hjobs, -⟩
  · rw [hsame]
    exact ⟨job, hjob, hid, hstarted⟩
  · have hmem := mem_update_of_mem hjob
      (fun job => (candidates db agentId limit request.locked).any fun candidate =>
        candidate.id = job.id) (claimWrite request.now).apply
    rw [← hjobs] at hmem
    split_ifs at hmem
    · exact ⟨_, hmem, hid, isStarted_running⟩
    · exact ⟨job, hmem, hid, hstarted⟩

variable {delivery : Delivery}

theorem deliveries_started {request : ClaimRequest} (h : delivery ∈ deliveries db request) :
    Started (claimRoute db request).1 delivery.job.id := by
  rcases claimRoute_cases db request with ⟨hnone, -⟩ | ⟨agentId, limit, hdeliveries, hjobs, -⟩
  · rw [hnone] at h
    cases h
  · rw [hdeliveries] at h
    obtain ⟨job, hjob, rfl⟩ := List.mem_map.mp h
    have hmem := mem_update_of_mem (mem_candidates hjob).1
      (fun job => (candidates db agentId limit request.locked).any fun candidate =>
        candidate.id = job.id) (claimWrite request.now).apply
    rw [← hjobs, if_pos (List.any_eq_true.mpr ⟨job, hjob, by simp⟩)] at hmem
    exact ⟨_, hmem, rfl, isStarted_running⟩

theorem step_started {machine : Machine} (h : Started machine.db jobId) (action : Action) :
    Started (machine.step action).db jobId := by
  cases action with
  | project projection => exact project_started h projection
  | claim request => exact claimRoute_started h request
  | report call => exact transition_started h call

/-! ## Deliveries over a run -/

structure Delivery.Eligible (delivery : Delivery) : Prop where
  queued : delivery.job.status = "queued"
  agent : delivery.job.agentId = delivery.agentId
  intent : delivery.job.intentId ≠ patchInstallIntentId
  command : delivery.job.commandId.isSome = true
  steps : delivery.steps ≠ []

theorem deliveries_eligible {request : ClaimRequest} (h : delivery ∈ deliveries db request) :
    delivery.Eligible := by
  rcases claimRoute_cases db request with ⟨hnone, -⟩ | ⟨agentId, limit, hdeliveries, -⟩
  · rw [hnone] at h
    cases h
  · rw [hdeliveries] at h
    obtain ⟨job, hjob, rfl⟩ := List.mem_map.mp h
    have hclaimable := (mem_candidates hjob).2
    simp only [claimable, Bool.and_eq_true, decide_eq_true_eq, List.any_eq_true] at hclaimable
    obtain ⟨⟨⟨⟨hqueued, hagent⟩, hintent⟩, hcommand⟩, step, hstep, hjobId⟩ := hclaimable
    refine ⟨hqueued, hagent, hintent, hcommand, ?_⟩
    exact List.ne_nil_of_mem (List.mem_filter.mpr ⟨hstep, by simpa using hjobId⟩)

/-- The invariant of a run. What was handed out has started, which is why it is
never handed out again. -/
structure Invariant (machine : Machine) : Prop where
  nodup : (machine.delivered.map (·.job.id)).Nodup
  started : ∀ delivery ∈ machine.delivered, Started machine.db delivery.job.id
  eligible : ∀ delivery ∈ machine.delivered, delivery.Eligible
  sent : (machine.sent.map DispatchJob.commandId).Perm
    (machine.delivered.map (·.job.commandId))

theorem not_started_of_deliveries {request : ClaimRequest} (h : delivery ∈ deliveries db request) :
    ¬ Started db delivery.job.id := by
  rcases claimRoute_cases db request with ⟨hnone, -⟩ | ⟨agentId, limit, hdeliveries, -⟩
  · rw [hnone] at h
    cases h
  · have hqueued := (deliveries_eligible h).queued
    rw [hdeliveries] at h
    obtain ⟨job, hjob, rfl⟩ := List.mem_map.mp h
    rintro ⟨other, hother, hid, hstarted⟩
    rw [db.job_eq_of_id hother (mem_candidates hjob).1 hid, hqueued,
      not_isStarted_queued] at hstarted
    cases hstarted

theorem deliveries_nodup (db : Database) (request : ClaimRequest) :
    ((deliveries db request).map (·.job.id)).Nodup := by
  rcases claimRoute_cases db request with ⟨hnone, -⟩ | ⟨agentId, limit, hdeliveries, -⟩
  · rw [hnone]
    exact List.nodup_nil
  · rw [hdeliveries, List.map_map]
    exact candidates_nodup db agentId limit request.locked

theorem deliveries_sent (db : Database) (request : ClaimRequest) :
    ((claimRoute db request).2.sent.map DispatchJob.commandId).Perm
      ((deliveries db request).map (·.job.commandId)) := by
  rcases claimRoute_cases db request with ⟨hnone, -, hsent⟩ |
    ⟨agentId, limit, hdeliveries, -, steps, hsent⟩
  · rw [hnone, hsent]
    exact List.Perm.nil
  · rw [hdeliveries, hsent, List.map_map]
    have hperm := buildRemediationDispatchJobs_commandIds
      ((candidates db agentId limit request.locked).map (claimWrite request.now).apply) steps
    rwa [List.map_map] at hperm

theorem step_invariant (machine : Machine) (action : Action) (h : Invariant machine) :
    Invariant (machine.step action) := by
  cases action with
  | project projection =>
    exact ⟨h.nodup, fun delivery hmem => step_started (h.started delivery hmem)
      (.project projection), h.eligible, h.sent⟩
  | report call =>
    exact ⟨h.nodup, fun delivery hmem => step_started (h.started delivery hmem) (.report call),
      h.eligible, h.sent⟩
  | claim request =>
    refine ⟨?_, ?_, ?_, ?_⟩
    · change ((machine.delivered ++ deliveries machine.db request).map (·.job.id)).Nodup
      rw [List.map_append]
      refine h.nodup.append (deliveries_nodup machine.db request) ?_
      intro jobId hold hnew
      obtain ⟨old, holdMem, rfl⟩ := List.mem_map.mp hold
      obtain ⟨new, hnewMem, hid⟩ := List.mem_map.mp hnew
      exact not_started_of_deliveries hnewMem (hid ▸ h.started old holdMem)
    · intro delivery hmem
      rcases List.mem_append.mp hmem with hold | hnew
      · exact step_started (h.started delivery hold) (.claim request)
      · exact deliveries_started hnew
    · intro delivery hmem
      rcases List.mem_append.mp hmem with hold | hnew
      · exact h.eligible delivery hold
      · exact deliveries_eligible hnew
    · change ((machine.sent ++ (claimRoute machine.db request).2.sent).map
        DispatchJob.commandId).Perm
          ((machine.delivered ++ deliveries machine.db request).map (·.job.commandId))
      rw [List.map_append, List.map_append]
      exact h.sent.append (deliveries_sent machine.db request)

/-- The claim's guarantees for the state that a run has reached. -/
structure DeliveryGuarantees (machine : Machine) : Prop where
  once : (machine.delivered.map (·.job.id)).Nodup
  eligible : ∀ delivery ∈ machine.delivered, delivery.Eligible
  sent : (machine.sent.map DispatchJob.commandId).Perm
    (machine.delivered.map (·.job.commandId))
  neverRequeued : ∀ actions, ∀ job ∈ machine.db.jobs, isStarted job.status = true →
    ∃ job' ∈ (run Machine.step machine actions).db.jobs, job'.id = job.id ∧
      isStarted job'.status = true ∧ job'.status ≠ "queued"

/-- In every interleaving of projections, claims and reports each job is handed
out at most once, to its own agent and while queued, and a started job is never
queued again. -/
theorem claims_at_most_once (db : Database) (actions : List Action) :
    DeliveryGuarantees (run Machine.step (Machine.initial db) actions) := by
  have hinitial : Invariant (Machine.initial db) :=
    ⟨List.nodup_nil, by simp [Machine.initial], by simp [Machine.initial], List.Perm.nil⟩
  have hinvariant := run_invariant step_invariant hinitial actions
  refine ⟨hinvariant.nodup, hinvariant.eligible, hinvariant.sent, ?_⟩
  intro later job hjob hstarted
  have hrun : Started (run Machine.step (run Machine.step (Machine.initial db) actions) later).db
      job.id :=
    run_invariant (P := fun machine : Machine => Started machine.db job.id)
      (fun _ action h => step_started h action) ⟨job, hjob, rfl, hstarted⟩ later
  obtain ⟨job', hjob', hid, hstarted'⟩ := hrun
  refine ⟨job', hjob', hid, hstarted', ?_⟩
  intro hqueued
  rw [hqueued, not_isStarted_queued] at hstarted'
  cases hstarted'

end Talos.Remediation
