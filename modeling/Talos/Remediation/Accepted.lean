import Talos.Remediation.Transition

/-!
# What an accepted report does

Both kinds of report write a list of steps: a direct report the reported step
alone, an aggregate report every durable step. `settle` is the effect of such a
list on one row, `Accepted` collects what is known of a call that was not
refused, and `transition_cases` says that a call is refused and changes nothing
or is accepted. Everything proved about runs of reports goes through it.
-/

namespace Talos.Remediation

open JavaScript Relational Database

/-! ## The derived job status -/

theorem deriveJobStatus_eq_running {statuses : List String} : deriveJobStatus statuses = .running ↔
      ∃ status ∈ statuses, isTerminalRemediationStatus status = false := by
  unfold deriveJobStatus
  by_cases h : statuses.all isTerminalRemediationStatus = true
  · have hall : ∀ status ∈ statuses, isTerminalRemediationStatus status = true :=
      List.all_eq_true.mp h
    constructor
    · simp only [h, Bool.not_true, Bool.false_eq_true, if_false]
      split_ifs <;> simp
    · rintro ⟨status, hmem, hnot⟩
      rw [hall status hmem] at hnot
      cases hnot
  · simp only [h, Bool.not_false, if_true, true_iff]
    simpa using h

theorem deriveJobStatus_perm {l l' : List String} (h : l.Perm l') :
    deriveJobStatus l = deriveJobStatus l' := by
  have hall : l.all isTerminalRemediationStatus = l'.all isTerminalRemediationStatus := h.all_eq
  have hcontains (status : String) : l.contains status = l'.contains status := by
    rw [Bool.eq_iff_iff]
    simp [h.mem_iff]
  simp only [deriveJobStatus, hall, hcontains]

/-- A terminal status admits no transition but to itself. -/
theorem eq_of_stepTransitionAllowed {current : String} {next : ReportableStatus}
    (hterminal : isTerminalRemediationStatus current = true)
    (h : stepTransitionAllowed current next = true) : next.text = current := by
  obtain ⟨terminal, rfl⟩ := isTerminal_iff.mp hterminal
  have hrunning := terminal.text_ne_running
  have hpending : terminal.text ≠ "pending" := by cases terminal <;> decide
  unfold stepTransitionAllowed at h
  split_ifs at h with heq
  · exact heq.symm
  · simp [hrunning] at h

/-! ## Writes to step rows -/

structure Write where
  stepIndex : ℤ
  status : ReportableStatus
  evidence : Option Json

def TerminalStepProjection.write (step : TerminalStepProjection) : Write :=
  ⟨step.stepIndex, .terminal step.status, some (.obj step.evidence)⟩

def StatusReport.write (report : StatusReport) : Write :=
  ⟨report.stepIndex, report.status, if report.hasEvidence then some report.evidence else none⟩

def owned (job : Job) (step : Step) : Bool :=
  step.jobId = job.id && step.organizationId = job.organizationId

/-- The columns that say which step a row is of. -/
def Step.place (step : Step) : ℕ × String × ℤ := (step.jobId, step.organizationId, step.stepIndex)

theorem owned_of_place_eq {job : Job} {step other : Step} (h : step.place = other.place) :
    owned job step = owned job other := by
  simp only [Step.place, Prod.mk.injEq] at h
  simp [owned, h]

def Write.target (write : Write) (job : Job) (step : Step) : Bool :=
  owned job step && step.stepIndex = write.stepIndex

variable (now : Timestamp) (job : Job)

def Write.apply (write : Write) (now : Timestamp) (job : Job) (step : Step) : Step :=
  if write.target job step then (stepWrite now write.status write.evidence).apply step else step

/-- The effect of a list of writes on one row. -/
def settle (writes : List Write) (step : Step) : Step :=
  writes.foldl (fun step write => write.apply now job step) step

theorem stepsOf_eq_filter (db : Database) (job : Job) :
    db.stepsOf job = db.steps.filter (owned job) := rfl

variable {db : Database}

theorem owned_of_mem_stepsOf {job : Job} {step : Step} (h : step ∈ db.stepsOf job) :
    owned job step = true :=
  (List.mem_filter.mp h).2

section Settle

variable (now : Timestamp) (job : Job)

@[simp] theorem settle_nil (step : Step) : settle now job [] step = step := rfl

@[simp] theorem settle_cons (write : Write) (writes : List Write) (step : Step) :
    settle now job (write :: writes) step = settle now job writes (write.apply now job step) := rfl

theorem Write.place_apply (write : Write) (step : Step) :
    (write.apply now job step).place = step.place := by
  unfold Write.apply
  split_ifs <;> rfl

theorem Write.stepIndex_apply (write : Write) (step : Step) :
    (write.apply now job step).stepIndex = step.stepIndex :=
  congrArg (·.2.2) (write.place_apply now job step)

/-- The writes leave every row the step that it is of. -/
theorem place_settle (writes : List Write) (step : Step) :
    (settle now job writes step).place = step.place := by
  induction writes generalizing step with
  | nil => rfl
  | cons write writes ih => rw [settle_cons, ih, write.place_apply]

theorem settle_stepIndex (writes : List Write) (step : Step) :
    (settle now job writes step).stepIndex = step.stepIndex :=
  congrArg (·.2.2) (place_settle now job writes step)

theorem owned_settle (other : Job) (writes : List Write) (step : Step) :
    owned other (settle now job writes step) = owned other step :=
  owned_of_place_eq (place_settle now job writes step)

theorem settle_eq_self_of_not_owned {step : Step} (h : owned job step = false)
    (writes : List Write) : settle now job writes step = step := by
  induction writes with
  | nil => rfl
  | cons write writes ih =>
    have hself : write.apply now job step = step := by simp [Write.apply, Write.target, h]
    rw [settle_cons, hself, ih]

theorem Write.apply_status_of_target {write : Write} {step : Step}
    (h : write.target job step = true) : (write.apply now job step).status = write.status.text := by
  simp [Write.apply, h, stepWrite]

theorem Write.apply_of_not_target {write : Write} {step : Step}
    (h : write.target job step = false) : write.apply now job step = step := by
  simp [Write.apply, h]

theorem Write.target_apply (write other : Write) (step : Step) :
    other.target job (write.apply now job step) = other.target job step := by
  rw [Write.target, owned_of_place_eq (write.place_apply now job step), write.stepIndex_apply,
    Write.target]

/-- The status of a row comes from the last write that names it. -/
theorem settle_status (writes : List Write) (step : Step) :
    ((∀ write ∈ writes, write.target job step = false) ∧
      (settle now job writes step).status = step.status) ∨
    ∃ write ∈ writes, write.target job step = true ∧
      (settle now job writes step).status = write.status.text := by
  induction writes generalizing step with
  | nil => exact Or.inl ⟨by simp, rfl⟩
  | cons write writes ih =>
    rw [settle_cons]
    rcases ih (write.apply now job step) with ⟨hnone, hstatus⟩ | ⟨last, hmem, htarget, hstatus⟩
    · by_cases hwrite : write.target job step = true
      · refine Or.inr ⟨write, by simp, hwrite, ?_⟩
        rw [hstatus, Write.apply_status_of_target now job hwrite]
      · have hnot : write.target job step = false := by simpa using hwrite
        have hself := Write.apply_of_not_target now job hnot
        rw [hself] at hnone hstatus ⊢
        refine Or.inl ⟨?_, hstatus⟩
        intro other hother
        rcases List.mem_cons.mp hother with rfl | htail
        · exact hnot
        · exact hnone other htail
    · rw [Write.target_apply] at htarget
      exact Or.inr ⟨last, by simp [hmem], htarget, hstatus⟩

end Settle

/-! ## The statements -/

/-- The writes of a report, one after the other. -/
def writeAll (now : Timestamp) (job : Job) : Database → List Write → Except SqlError Database
  | db, [] => .ok db
  | db, write :: writes =>
    match writeStep db now job write.stepIndex write.status write.evidence with
    | .error error => .error error
    | .ok db' => writeAll now job db' writes

theorem writeSteps_eq (db : Database) (steps : List TerminalStepProjection) :
    writeSteps now job db steps = writeAll now job db (steps.map TerminalStepProjection.write) := by
  induction steps generalizing db with
  | nil => rfl
  | cons step steps ih =>
    simp only [writeSteps, ih]
    rfl

theorem writeAll_ok {writes : List Write}
    (h : ∀ write ∈ writes, write.evidence.all Json.storable = true) (db : Database) :
    ∃ db', writeAll now job db writes = .ok db' ∧ db'.jobs = db.jobs ∧
      db'.steps = db.steps.map (settle now job writes) := by
  induction writes generalizing db with
  | nil => exact ⟨db, rfl, rfl, (List.map_id _).symm⟩
  | cons write writes ih =>
    rw [List.forall_mem_cons] at h
    simp only [writeAll, writeStep, h.1, if_true]
    obtain ⟨db', hdb', hjobs, hsteps⟩ := ih h.2 _
    exact ⟨db', hdb', hjobs, hsteps.trans List.map_map⟩

theorem writeAll_error {writes : List Write}
    (h : ¬ ∀ write ∈ writes, write.evidence.all Json.storable = true) (db : Database) :
    ∃ error, writeAll now job db writes = .error error := by
  induction writes generalizing db with
  | nil => exact absurd (by simp) h
  | cons write writes ih =>
    rw [List.forall_mem_cons, not_and] at h
    by_cases hwrite : write.evidence.all Json.storable = true
    · simp only [writeAll, writeStep, hwrite, if_true]
      exact ih (h hwrite) _
    · simp only [writeAll, writeStep, hwrite]
      exact ⟨_, rfl⟩

/-- On rows of one job a write to a known index is `map.set` on the map of
statuses. -/
theorem statusMap_apply (write : Write) {steps : List Step}
    (howned : ∀ step ∈ steps, owned job step = true)
    (hknown : ∃ step ∈ steps, step.stepIndex = write.stepIndex) :
    statusMap (steps.map (write.apply now job)) =
      mapSet (statusMap steps) write.stepIndex write.status.text := by
  have hany : (statusMap steps).any (·.1 = write.stepIndex) = true := by
    obtain ⟨step, hmem, hindex⟩ := hknown
    simp only [statusMap, List.any_map, List.any_eq_true]
    exact ⟨step, hmem, by simp [hindex]⟩
  unfold mapSet
  rw [if_pos hany]
  unfold statusMap
  rw [List.map_map, List.map_map]
  apply List.map_congr_left
  intro step hstep
  by_cases hindex : step.stepIndex = write.stepIndex
  · have htarget : write.target job step = true := by
      simp [Write.target, howned step hstep, hindex]
    simp [write.stepIndex_apply, Write.apply_status_of_target now job htarget, hindex]
  · have htarget : write.target job step = false := by simp [Write.target, hindex]
    simp [Write.apply_of_not_target now job htarget, hindex]

theorem statusMap_settle (writes : List Write) (steps : List Step)
    (howned : ∀ step ∈ steps, owned job step = true)
    (hknown : ∀ write ∈ writes, ∃ step ∈ steps, step.stepIndex = write.stepIndex) :
    statusMap (steps.map (settle now job writes)) =
      writes.foldl (fun map write => mapSet map write.stepIndex write.status.text)
        (statusMap steps) := by
  induction writes generalizing steps with
  | nil =>
    change statusMap (steps.map id) = statusMap steps
    rw [List.map_id]
  | cons write writes ih =>
    have happly := statusMap_apply now job write howned (hknown write (by simp))
    have hsplit : steps.map (settle now job (write :: writes)) =
        (steps.map (write.apply now job)).map (settle now job writes) := by
      rw [List.map_map]
      rfl
    rw [hsplit, ih, happly, List.foldl_cons]
    · intro step hstep
      obtain ⟨old, hold, rfl⟩ := List.mem_map.mp hstep
      rw [owned_of_place_eq (write.place_apply now job old), howned old hold]
    · intro other hother
      obtain ⟨old, hold, hindex⟩ := hknown other (by simp [hother])
      refine ⟨write.apply now job old, List.mem_map.mpr ⟨old, hold, rfl⟩, ?_⟩
      rw [write.stepIndex_apply, hindex]

/-! ## The projection of aggregate evidence -/

variable {reportedStatus : TerminalStatus} {steps : List TerminalStepProjection}

variable {reported : List TerminalStepProjection}

theorem projectDurableStep_ok {durable : Step} {step : TerminalStepProjection}
    (h : projectDurableStep reportedStatus reported durable = .ok step) :
    step.stepIndex = durable.stepIndex ∧
      stepTransitionAllowed durable.status (.terminal step.status) = true := by
  unfold projectDurableStep at h
  cases hfind : reported.find? (fun entry => entry.stepIndex = durable.stepIndex) with
  | some found =>
    simp only [hfind] at h
    split_ifs at h with hallowed
    cases h
    have hindex := List.find?_some hfind
    exact ⟨by simpa using hindex, by simpa using hallowed⟩
  | none =>
    simp only [hfind] at h
    split_ifs at h with hcompleted hallowed
    cases h
    exact ⟨rfl, by simpa using hallowed⟩

variable {durableSteps : List Step}

/-- An aggregate projection settles the durable steps one by one. -/
theorem projectDurableSteps_eq_ok :
    projectDurableSteps reportedStatus reported durableSteps = .ok steps ↔
      durableSteps.map (projectDurableStep reportedStatus reported) = steps.map .ok := by
  induction durableSteps generalizing steps with
  | nil => cases steps <;> simp [projectDurableSteps]
  | cons durable rest ih =>
    rw [projectDurableSteps, List.map_cons]
    cases steps with
    | nil =>
      cases projectDurableStep reportedStatus reported durable <;>
        cases projectDurableSteps reportedStatus reported rest <;> simp
    | cons first others =>
      rw [List.map_cons, List.cons.injEq, ← ih]
      cases projectDurableStep reportedStatus reported durable <;>
        cases projectDurableSteps reportedStatus reported rest <;> simp

theorem aggregateProjection_eq {values : List Json} {reportedStepIndex : ℕ}
    (h : aggregateProjection values reportedStatus reportedStepIndex durableSteps =
      .aggregate steps) : ∃ reported, readReportedSteps durableSteps [] values = .ok reported ∧
      (∃ entry ∈ reported, entry.stepIndex = (reportedStepIndex : ℤ)) ∧
      projectDurableSteps reportedStatus reported durableSteps = .ok steps ∧
      deriveJobStatus (steps.map (·.status.text)) = .terminal reportedStatus := by
  unfold aggregateProjection at h
  cases hread : readReportedSteps durableSteps [] values with
  | error error => rw [hread] at h; cases h
  | ok reported =>
    simp only [hread] at h
    split_ifs at h with hreported
    cases hproject : projectDurableSteps reportedStatus reported durableSteps with
    | error error => rw [hproject] at h; cases h
    | ok projected =>
      simp only [hproject] at h
      split_ifs at h with hstatus
      cases h
      refine ⟨reported, rfl, by simpa using hreported, hproject, ?_⟩
      simpa using hstatus

theorem directProjection_ne_aggregate (evidence : Option Record) (reportedStatus : TerminalStatus)
    (reportedStepIndex : ℕ) (steps : List TerminalStepProjection) :
    directProjection evidence reportedStatus reportedStepIndex ≠ .aggregate steps := by
  unfold directProjection
  dsimp only
  split_ifs <;> simp

theorem aggregateProjection_ne_direct (values : List Json) (reportedStatus : TerminalStatus)
    (reportedStepIndex : ℕ) (durableSteps : List Step) :
    aggregateProjection values reportedStatus reportedStepIndex durableSteps ≠ .direct := by
  unfold aggregateProjection
  cases readReportedSteps durableSteps [] values with
  | error error => simp
  | ok reported =>
    dsimp only
    split_ifs
    · simp
    · cases projectDurableSteps reportedStatus reported durableSteps with
      | error error => simp
      | ok projected =>
        dsimp only
        split_ifs <;> simp

/-- A report whose evidence lists step outcomes. -/
def StatusReport.isAggregate (report : StatusReport) : Bool :=
  report.status ≠ .running &&
    ((asRecord (some report.evidence)).bind (·.get? "steps")).isSome

variable {report : StatusReport}

theorem projectionOf_aggregate (h : projectionOf report durableSteps = .aggregate steps) :
    ∃ status values, report.status = .terminal status ∧
      (asRecord (some report.evidence)).bind (·.get? "steps") = some (.arr values) ∧
      aggregateProjection values status report.stepIndex durableSteps = .aggregate steps := by
  unfold projectionOf at h
  cases hstatus : report.status with
  | running => rw [hstatus] at h; cases h
  | terminal status =>
    simp only [hstatus] at h
    unfold terminalStepProjection at h
    split at h
    · exact absurd h (directProjection_ne_aggregate _ _ _ _)
    · next values hvalues => exact ⟨status, values, rfl, hvalues, h⟩
    · cases h

theorem isAggregate_of_projectionOf_aggregate
    (h : projectionOf report durableSteps = .aggregate steps) : report.isAggregate = true := by
  obtain ⟨status, values, hstatus, hvalues, -⟩ := projectionOf_aggregate h
  simp [StatusReport.isAggregate, hstatus, hvalues]

theorem not_isAggregate_of_projectionOf_direct (h : projectionOf report durableSteps = .direct) :
    report.isAggregate = false := by
  unfold projectionOf at h
  cases hstatus : report.status with
  | running => simp [StatusReport.isAggregate, hstatus]
  | terminal status =>
    simp only [hstatus] at h
    unfold terminalStepProjection at h
    split at h
    · next hnone => simp [StatusReport.isAggregate, hnone]
    · exact absurd h (aggregateProjection_ne_direct _ _ _ _)
    · cases h

/-! ## Accepted calls -/

theorem mem_sortSteps {steps : List Step} {step : Step} : step ∈ sortSteps steps ↔ step ∈ steps :=
  List.mem_insertionSort _

/-- What a report that is not refused says about the durable steps. -/
def StatusReport.Writes (report : StatusReport) (durableSteps : List Step) (writes : List Write) :
    Prop :=
  (projectionOf report durableSteps = .direct ∧ writes = [report.write]) ∨
    ∃ steps, projectionOf report durableSteps = .aggregate steps ∧
      writes = steps.map TerminalStepProjection.write

/-- What is known of a call that found its job and was not refused. The list
`writes` is what the report says about the durable steps. -/
structure Accepted (db : Database) (call : Call) (job : Job) (writes : List Write) : Prop where
  found : db.jobs.find? call.selector.selects = some job
  jobAllowed : transitionAllowed job.status call.report.status = true
  targetAllowed : ∃ target ∈ db.stepsOf job, target.stepIndex = (call.report.stepIndex : ℤ) ∧
    stepTransitionAllowed target.status call.report.status = true
  writes_eq : call.report.Writes (sortSteps (db.stepsOf job)) writes
  storable : ∀ write ∈ writes, write.evidence.all Json.storable = true
  steps_eq : (transition db call).steps = db.steps.map (settle call.now job writes)
  jobs_eq : (transition db call).jobs = update db.jobs
    (fun row => row.id = job.id && row.organizationId = job.organizationId &&
      row.agentId = job.agentId)
    (jobWrite call.now
      (deriveJobStatus (((transition db call).stepsOf job).map Step.status))).apply
  outcome_eq : outcome db call = some (.updated call.report.status
    (deriveJobStatus (((transition db call).stepsOf job).map Step.status))
    job.id job.commandId job.organizationId job.agentId)

def projectedStatuses (durableSteps : List Step) (writes : List Write) : List (ℤ × String) :=
  writes.foldl (fun map write => mapSet map write.stepIndex write.status.text)
    (statusMap durableSteps)

/-- The rows of the job after the writes, read in the order of the report, carry
the projected statuses. -/
theorem deriveJobStatus_settle {db' : Database} (writes : List Write)
    (hsteps : db'.steps = db.steps.map (settle now job writes))
    (hknown : ∀ write ∈ writes, ∃ step ∈ db.stepsOf job, step.stepIndex = write.stepIndex) :
    deriveJobStatus ((projectedStatuses (sortSteps (db.stepsOf job)) writes).map Prod.snd) =
    deriveJobStatus ((db'.stepsOf job).map Step.status) := by
  have hnew : db'.stepsOf job = (db.stepsOf job).map (settle now job writes) := by
    rw [stepsOf_eq_filter, hsteps, List.filter_map, stepsOf_eq_filter]
    congr 1
    apply List.filter_congr
    intro step _
    exact owned_settle now job job writes step
  have hfold := statusMap_settle now job writes (sortSteps (db.stepsOf job))
    (fun step hstep => owned_of_mem_stepsOf (mem_sortSteps.mp hstep))
    (fun write hwrite => by
      obtain ⟨step, hstep, hindex⟩ := hknown write hwrite
      exact ⟨step, mem_sortSteps.mpr hstep, hindex⟩)
  rw [projectedStatuses, ← hfold, hnew]
  apply deriveJobStatus_perm
  unfold statusMap
  rw [List.map_map]
  exact ((List.perm_insertionSort _ (db.stepsOf job)).map _).map Step.status

/-- The steps that an aggregate projection names are durable steps. -/
theorem exists_of_projectionOf_aggregate (h : projectionOf report durableSteps = .aggregate steps) :
    ∀ step ∈ steps, ∃ durable ∈ durableSteps, durable.stepIndex = step.stepIndex ∧
      stepTransitionAllowed durable.status (.terminal step.status) = true := by
  obtain ⟨status, values, -, -, haggregate⟩ := projectionOf_aggregate h
  obtain ⟨reported, -, -, hproject, -⟩ := aggregateProjection_eq haggregate
  intro step hstep
  obtain ⟨durable, hdurable, hentry⟩ := List.mem_map.mp
    (projectDurableSteps_eq_ok.mp hproject ▸ List.mem_map_of_mem hstep)
  obtain ⟨hindex, hallowed⟩ := projectDurableStep_ok hentry
  exact ⟨durable, hdurable, hindex.symm, hallowed⟩

theorem find?_durable {job : Job} {step : Step} (hstep : step ∈ db.stepsOf job)
    {n : ℕ} (hn : step.stepIndex = n) :
    (sortSteps (db.stepsOf job)).find? (fun step => step.stepIndex = (n : ℤ)) = some step := by
  cases hfind : (sortSteps (db.stepsOf job)).find? fun step => step.stepIndex = (n : ℤ) with
  | none =>
    have hnot := List.find?_eq_none.mp hfind step (mem_sortSteps.mpr hstep)
    exact absurd (decide_eq_true hn) hnot
  | some found =>
    have hindex : found.stepIndex = n := by simpa using List.find?_some hfind
    rw [db.step_eq_of_index (mem_sortSteps.mp (List.mem_of_find?_eq_some hfind)) hstep
      (hindex.trans hn.symm)]

section Checks

variable {call : Call} {job : Job} {writes : List Write}
  (hfound : db.jobs.find? call.selector.selects = some job)
  (hjob : transitionAllowed job.status call.report.status = true)

include hfound hjob

theorem transitionRemediationStatus_eq {target : Step} (htarget : target ∈ db.stepsOf job)
    (hindex : target.stepIndex = (call.report.stepIndex : ℤ))
    (hallowed : stepTransitionAllowed target.status call.report.status = true)
    (hwrites : call.report.Writes (sortSteps (db.stepsOf job)) writes) :
    transitionRemediationStatus db call.now call.selector call.report =
      match writeAll call.now job db writes with
      | .error error => .error error
      | .ok db' => .ok (finishTransition db' call.now job call.report
          (projectedStatuses (sortSteps (db.stepsOf job)) writes)) := by
  have hfind := find?_durable htarget hindex
  rcases hwrites with ⟨hdirect, rfl⟩ | ⟨steps, haggregate, rfl⟩
  · simp only [transitionRemediationStatus, hfound, hjob, hfind, hallowed, hdirect, writeAll,
      StatusReport.write, Bool.not_true, Bool.false_eq_true, if_false]
    cases writeStep db call.now job call.report.stepIndex call.report.status
      (if call.report.hasEvidence then some call.report.evidence else none) <;> rfl
  · simp only [transitionRemediationStatus, hfound, hjob, hfind, hallowed, haggregate,
      writeSteps_eq, projectedStatuses, List.foldl_map, Bool.not_true, Bool.false_eq_true, if_false]
    rfl

/-- The statements of both kinds of report, seen as one list of writes followed
by the update of the job. -/
theorem Accepted.of_checks
    (htarget : ∃ target ∈ db.stepsOf job, target.stepIndex = (call.report.stepIndex : ℤ) ∧
      stepTransitionAllowed target.status call.report.status = true)
    (hwrites : call.report.Writes (sortSteps (db.stepsOf job)) writes)
    (hstorable : ∀ write ∈ writes, write.evidence.all Json.storable = true) :
    Accepted db call job writes := by
  obtain ⟨target, hmem, hindex, hallowed⟩ := htarget
  obtain ⟨middle, hmiddle, hjobs, hsteps⟩ := writeAll_ok call.now job hstorable db
  have hcall := transitionRemediationStatus_eq hfound hjob hmem hindex hallowed hwrites
  rw [hmiddle] at hcall
  have hrows : (transition db call).steps = db.steps.map (settle call.now job writes) := by
    rw [transition, hcall]
    exact hsteps
  have hknown : ∀ write ∈ writes, ∃ step ∈ db.stepsOf job, step.stepIndex = write.stepIndex := by
    intro write hwrite
    rcases hwrites with ⟨-, rfl⟩ | ⟨steps, haggregate, rfl⟩
    · rw [List.mem_singleton.mp hwrite]
      exact ⟨target, hmem, hindex⟩
    · obtain ⟨step, hstep, rfl⟩ := List.mem_map.mp hwrite
      obtain ⟨durable, hdurable, hsame, -⟩ := exists_of_projectionOf_aggregate haggregate step hstep
      exact ⟨durable, mem_sortSteps.mp hdurable, hsame⟩
  have hderive := deriveJobStatus_settle call.now job writes hrows hknown
  refine ⟨hfound, hjob, ⟨target, hmem, hindex, hallowed⟩, hwrites, hstorable, hrows, ?_, ?_⟩
  · rw [← hderive]
    simp [transition, hcall, finishTransition, hjobs]
  · rw [← hderive]
    simp [outcome, hcall, finishTransition]

end Checks

/-- A call is refused and leaves the tables as they were, or it is accepted. -/
theorem transition_cases (db : Database) (call : Call) :
    (transition db call = db ∧ ∀ result, outcome db call = some result → result.isUpdated = false) ∨
    ∃ job writes, Accepted db call job writes := by
  have refused (result : TransitionResult) (hresult : result.isUpdated = false)
      (hcall : transitionRemediationStatus db call.now call.selector call.report =
        .ok (db, result)) :
      transition db call = db ∧
        ∀ result, outcome db call = some result → result.isUpdated = false := by
    refine ⟨by simp [transition, hcall], ?_⟩
    intro other hother
    have heq : result = other := by simpa [outcome, hcall] using hother
    rw [← heq, hresult]
  cases hfound : db.jobs.find? call.selector.selects with
  | none =>
    exact Or.inl (refused .notFound rfl (by simp [transitionRemediationStatus, hfound]))
  | some job =>
    by_cases hjob : transitionAllowed job.status call.report.status = true
    swap
    · exact Or.inl (refused (.conflict job.status) rfl
        (by simp [transitionRemediationStatus, hfound, hjob]))
    cases htarget : (sortSteps (db.stepsOf job)).find?
        fun step => step.stepIndex = (call.report.stepIndex : ℤ) with
    | none =>
      exact Or.inl (refused .stepNotFound rfl
        (by simp [transitionRemediationStatus, hfound, hjob, htarget]))
    | some target =>
      have hmem : target ∈ db.stepsOf job := mem_sortSteps.mp (List.mem_of_find?_eq_some htarget)
      have hindex : target.stepIndex = (call.report.stepIndex : ℤ) := by
        simpa using List.find?_some htarget
      by_cases hallowed : stepTransitionAllowed target.status call.report.status = true
      swap
      · exact Or.inl (refused (.stepConflict call.report.stepIndex target.status) rfl
          (by simp [transitionRemediationStatus, hfound, hjob, htarget, hallowed]))
      have hwritten {writes : List Write}
          (hwrites : call.report.Writes (sortSteps (db.stepsOf job)) writes) :
          (transition db call = db ∧
            ∀ result, outcome db call = some result → result.isUpdated = false) ∨
          ∃ job writes, Accepted db call job writes := by
        by_cases hstorable : ∀ write ∈ writes, write.evidence.all Json.storable = true
        · exact Or.inr ⟨job, writes, .of_checks hfound hjob ⟨target, hmem, hindex, hallowed⟩ hwrites
            hstorable⟩
        · obtain ⟨error, herror⟩ := writeAll_error call.now job hstorable db
          have hcall := transitionRemediationStatus_eq hfound hjob hmem hindex hallowed hwrites
          rw [herror] at hcall
          exact Or.inl ⟨by simp [transition, hcall], by simp [outcome, hcall]⟩
      cases hprojection : projectionOf call.report (sortSteps (db.stepsOf job)) with
      | invalid error =>
        exact Or.inl (refused (.invalidEvidence error) rfl
          (by simp [transitionRemediationStatus, hfound, hjob, htarget, hallowed, hprojection]))
      | direct => exact hwritten (Or.inl ⟨hprojection, rfl⟩)
      | aggregate steps => exact hwritten (Or.inr ⟨steps, hprojection, rfl⟩)

theorem accepted_of_updated {call : Call}
    (h : ∃ result, outcome db call = some result ∧ result.isUpdated = true) :
    ∃ job writes, Accepted db call job writes := by
  obtain ⟨result, hresult, hupdated⟩ := h
  rcases transition_cases db call with ⟨-, hrefused⟩ | haccepted
  · rw [hrefused result hresult] at hupdated
    cases hupdated
  · exact haccepted

/-- After an aggregate report every durable step carries the status of its
entry: entries are determined by the step, so the last write that names the
step is the step's own. -/
theorem settled_entry {job : Job}
    (hproject :
      projectDurableSteps reportedStatus reported (sortSteps (db.stepsOf job)) = .ok steps)
    {durable : Step} (hdurable : durable ∈ db.stepsOf job) :
    ∃ step ∈ steps, projectDurableStep reportedStatus reported durable = .ok step ∧
      (settle now job (steps.map TerminalStepProjection.write) durable).status =
        step.status.text := by
  have hmap := projectDurableSteps_eq_ok.mp hproject
  obtain ⟨step, hstep, hentry⟩ := List.mem_map.mp
    (hmap ▸ List.mem_map_of_mem (mem_sortSteps.mpr hdurable))
  refine ⟨step, hstep, hentry.symm, ?_⟩
  rcases settle_status now job (steps.map TerminalStepProjection.write) durable with
    ⟨hnone, -⟩ | ⟨write, hwrite, htarget, hstatus⟩
  · have hfalse := hnone step.write (List.mem_map_of_mem hstep)
    simp [Write.target, owned_of_mem_stepsOf hdurable, TerminalStepProjection.write,
      (projectDurableStep_ok hentry.symm).1] at hfalse
  · obtain ⟨other, hother, rfl⟩ := List.mem_map.mp hwrite
    obtain ⟨row, hrow, hotherEntry⟩ := List.mem_map.mp (hmap ▸ List.mem_map_of_mem hother)
    have hparts : owned job durable = true ∧ durable.stepIndex = other.write.stepIndex := by
      simpa [Write.target] using htarget
    have hsame : durable = row := db.step_eq_of_index hdurable (mem_sortSteps.mp hrow)
      (hparts.2.trans (projectDurableStep_ok hotherEntry).1)
    rw [hsame, hotherEntry] at hentry
    cases hentry
    exact hstatus

end Talos.Remediation
