import Talos.Remediation.Accepted
import Talos.Transition.Run

/-!
# Job and step statuses stay consistent

A job is consistent when its status is the one derived from its durable steps.
One report keeps every consistent job consistent, never moves a terminal step,
and therefore never moves a terminal job; the same then holds along every run
of reports, whichever jobs the reports select.
-/

namespace Talos.Remediation

open JavaScript Relational Database Transition

variable (db : Database)

def stepStatuses (job : Job) : List String :=
  (db.stepsOf job).map Step.status

/-- The job's status is the one derived from its durable steps. -/
def Consistent (job : Job) : Prop :=
  job.status = (deriveJobStatus (stepStatuses db job)).text

theorem stepsOf_congr {a b : Job} (hid : a.id = b.id)
    (horganization : a.organizationId = b.organizationId) : db.stepsOf a = db.stepsOf b := by
  simp [stepsOf, hid, horganization]

namespace Accepted

variable {db : Database} {call : Call} {job : Job} {writes : List Write}

variable (h : Accepted db call job writes)
include h

theorem mem : job ∈ db.jobs := List.mem_of_find?_eq_some h.found

theorem stepsOf_eq (row : Job) :
    (transition db call).stepsOf row = (db.stepsOf row).map (settle call.now job writes) := by
  rw [stepsOf_eq_filter, h.steps_eq, List.filter_map, stepsOf_eq_filter]
  congr 1
  apply List.filter_congr
  intro step _
  exact owned_settle call.now job row writes step

theorem stepsOf_eq_of_ne {row : Job} (hne : row.id ≠ job.id) :
    (transition db call).stepsOf row = db.stepsOf row := by
  rw [h.stepsOf_eq row]
  conv_rhs => rw [← List.map_id (db.stepsOf row)]
  apply List.map_congr_left
  intro step hstep
  have hjobId := (mem_stepsOf.mp hstep).2.1
  have hnot : owned job step = false := by simp [owned, hjobId, hne]
  exact settle_eq_self_of_not_owned call.now job hnot writes

/-- Every write is an allowed transition of the row it names. -/
theorem writeAllowed {write : Write} (hwrite : write ∈ writes)
    {step : Step} (hstep : step ∈ db.stepsOf job) (hindex : step.stepIndex = write.stepIndex) :
    stepTransitionAllowed step.status write.status = true := by
  rcases h.writes_eq with ⟨-, rfl⟩ | ⟨steps, hprojection, rfl⟩
  · obtain ⟨target, htarget, htargetIndex, hallowed⟩ := h.targetAllowed
    rw [List.mem_singleton.mp hwrite] at hindex ⊢
    have heq : step = target := db.step_eq_of_index hstep htarget (hindex.trans htargetIndex.symm)
    rw [heq]
    exact hallowed
  · obtain ⟨entry, hentry, rfl⟩ := List.mem_map.mp hwrite
    obtain ⟨durable, hdurable, hdurableIndex, hallowed⟩ :=
      exists_of_projectionOf_aggregate hprojection entry hentry
    have heq : step = durable :=
      db.step_eq_of_index hstep (mem_sortSteps.mp hdurable) (hindex.trans hdurableIndex.symm)
    rw [heq]
    exact hallowed

theorem settle_status_of_terminal {step : Step}
    (hstep : step ∈ db.steps) (hterminal : isTerminalRemediationStatus step.status = true) :
    (settle call.now job writes step).status = step.status := by
  rcases settle_status call.now job writes step with ⟨-, hsame⟩ | ⟨write, hwrite, htarget, hstatus⟩
  · exact hsame
  · have hparts : owned job step = true ∧ step.stepIndex = write.stepIndex := by
      simpa [Write.target] using htarget
    have hmem : step ∈ db.stepsOf job := List.mem_filter.mpr ⟨hstep, hparts.1⟩
    rw [hstatus]
    exact eq_of_stepTransitionAllowed hterminal (h.writeAllowed hwrite hmem hparts.2)

theorem job_eq {row : Job} (hrow : row ∈ db.jobs) :
    (row.id ≠ job.id ∧ row ∈ (transition db call).jobs) ∨
    (row = job ∧ (jobWrite call.now (deriveJobStatus (stepStatuses (transition db call) job))).apply
      job ∈ (transition db call).jobs) := by
  rw [h.jobs_eq]
  by_cases hid : row.id = job.id
  · have heq : row = job := db.job_eq_of_id hrow h.mem hid
    refine Or.inr ⟨heq, ?_⟩
    have hmem := mem_update_of_mem h.mem
      (fun row => row.id = job.id && row.organizationId = job.organizationId &&
        row.agentId = job.agentId)
      (jobWrite call.now (deriveJobStatus (stepStatuses (transition db call) job))).apply
    simpa [stepStatuses] using hmem
  · refine Or.inl ⟨hid, mem_update_of_not hrow ?_ _⟩
    simp [hid]

end Accepted

/-! ## One report -/

theorem transition_step (call : Call) {row : Job} {step : Step} (hstep : step ∈ db.stepsOf row) :
    ∃ step' ∈ (transition db call).stepsOf row, step'.stepIndex = step.stepIndex ∧
      (isTerminalRemediationStatus step.status = true → step'.status = step.status) := by
  rcases transition_cases db call with ⟨hsame, -⟩ | ⟨job, writes, haccepted⟩
  · rw [hsame]
    exact ⟨step, hstep, rfl, fun _ => rfl⟩
  · rw [haccepted.stepsOf_eq row]
    refine ⟨_, List.mem_map.mpr ⟨step, hstep, rfl⟩, settle_stepIndex call.now job writes step, ?_⟩
    exact haccepted.settle_status_of_terminal (mem_stepsOf.mp hstep).1

/-- A consistent job stays consistent, and with a terminal status it keeps that
status: all its steps are then terminal and none of them moves. -/
theorem transition_consistent (call : Call) {row : Job} (hrow : row ∈ db.jobs)
    (hconsistent : Consistent db row) : ∃ row' ∈ (transition db call).jobs, row'.id = row.id ∧
      row'.organizationId = row.organizationId ∧ Consistent (transition db call) row' ∧
      (isTerminalRemediationStatus row.status = true → row'.status = row.status) := by
  rcases transition_cases db call with ⟨hsame, -⟩ | ⟨job, writes, haccepted⟩
  · rw [hsame]
    exact ⟨row, hrow, rfl, rfl, hconsistent, fun _ => rfl⟩
  · rcases haccepted.job_eq hrow with ⟨hne, hmem⟩ | ⟨rfl, hmem⟩
    · refine ⟨row, hmem, rfl, rfl, ?_, fun _ => rfl⟩
      rw [Consistent, stepStatuses, haccepted.stepsOf_eq_of_ne hne]
      exact hconsistent
    · refine ⟨_, hmem, rfl, rfl, rfl, ?_⟩
      intro hterminal
      have hsteps : ∀ step ∈ db.stepsOf row, isTerminalRemediationStatus step.status = true := by
        intro step hstep
        by_contra hnot
        have hderived : deriveJobStatus (stepStatuses db row) = .running :=
          deriveJobStatus_eq_running.mpr
            ⟨step.status, List.mem_map.mpr ⟨step, hstep, rfl⟩, by simpa using hnot⟩
        rw [hconsistent, hderived] at hterminal
        cases hterminal
      have hstatuses : stepStatuses (transition db call) row = stepStatuses db row := by
        rw [stepStatuses, haccepted.stepsOf_eq row, List.map_map, stepStatuses]
        apply List.map_congr_left
        intro step hstep
        exact haccepted.settle_status_of_terminal (mem_stepsOf.mp hstep).1 (hsteps step hstep)
      rw [hstatuses]
      exact hconsistent.symm

theorem Accepted.terminal_of_aggregate {db : Database} {call : Call} {job : Job}
    {writes : List Write} (h : Accepted db call job writes)
    (haggregate : call.report.isAggregate = true) :
    ∀ step ∈ (transition db call).stepsOf job, isTerminalRemediationStatus step.status = true := by
  rcases h.writes_eq with ⟨hdirect, -⟩ | ⟨steps, hprojection, rfl⟩
  · rw [not_isAggregate_of_projectionOf_direct hdirect] at haggregate
    cases haggregate
  obtain ⟨status, values, -, -, hvalues⟩ := projectionOf_aggregate hprojection
  obtain ⟨reported, -, -, hproject, -⟩ := aggregateProjection_eq hvalues
  intro step' hstep'
  rw [h.stepsOf_eq job] at hstep'
  obtain ⟨step, hstep, rfl⟩ := List.mem_map.mp hstep'
  obtain ⟨entry, -, -, hstatus⟩ := settled_entry call.now hproject hstep
  rw [hstatus]
  exact isTerminal_text entry.status

/-! ## Runs of reports -/

theorem run_step (calls : List Call) {row : Job} {step : Step} (hstep : step ∈ db.stepsOf row)
    (hterminal : isTerminalRemediationStatus step.status = true) :
    ∃ step' ∈ (run transition db calls).stepsOf row, step'.stepIndex = step.stepIndex ∧
      step'.status = step.status := by
  induction calls generalizing db step with
  | nil => exact ⟨step, hstep, rfl, rfl⟩
  | cons call calls ih =>
    obtain ⟨middle, hmiddle, hindex, hsame⟩ := transition_step db call hstep
    have hstatus := hsame hterminal
    rw [← hstatus] at hterminal
    obtain ⟨last, hlast, hlastIndex, hlastStatus⟩ := ih (transition db call) hmiddle hterminal
    exact ⟨last, hlast, hlastIndex.trans hindex, hlastStatus.trans hstatus⟩

theorem run_consistent (calls : List Call) {row : Job} (hrow : row ∈ db.jobs)
    (hconsistent : Consistent db row) : ∃ row' ∈ (run transition db calls).jobs, row'.id = row.id ∧
      row'.organizationId = row.organizationId ∧ Consistent (run transition db calls) row' ∧
      (isTerminalRemediationStatus row.status = true → row'.status = row.status) := by
  induction calls generalizing db row with
  | nil => exact ⟨row, hrow, rfl, rfl, hconsistent, fun _ => rfl⟩
  | cons call calls ih =>
    obtain ⟨middle, hmem, hid, horganization, hmiddle, hkeep⟩ :=
      transition_consistent db call hrow hconsistent
    obtain ⟨last, hlast, hlastId, hlastOrganization, hlastConsistent, hlastKeep⟩ :=
      ih (transition db call) hmem hmiddle
    refine ⟨last, hlast, hlastId.trans hid, hlastOrganization.trans horganization,
      hlastConsistent, ?_⟩
    intro hterminal
    have hstatus := hkeep hterminal
    rw [← hstatus] at hterminal
    exact (hlastKeep hterminal).trans hstatus

/-- The guarantees for one job in a state reached by reports. -/
structure StatusGuarantees (job : Job) (db : Database) : Prop where
  derived : ∃ row ∈ db.jobs, row.id = job.id ∧ row.organizationId = job.organizationId ∧
    row.status = (deriveJobStatus ((db.stepsOf row).map Step.status)).text
  stepFinal : ∀ calls, ∀ step ∈ db.stepsOf job, isTerminalRemediationStatus step.status = true →
    ∃ step' ∈ (run transition db calls).stepsOf job, step'.stepIndex = step.stepIndex ∧
      step'.status = step.status
  jobFinal : ∀ calls, ∀ row ∈ db.jobs, row.id = job.id →
    isTerminalRemediationStatus row.status = true →
    ∃ row' ∈ (run transition db calls).jobs, row'.id = job.id ∧ row'.status = row.status
  aggregateFinal : ∀ call status commandId organizationId agentId,
    call.report.isAggregate = true →
    outcome db call = some (.updated call.report.status status job.id commandId organizationId
      agentId) →
    ∀ step ∈ (transition db call).stepsOf job, isTerminalRemediationStatus step.status = true
  refusedUnchanged : ∀ call, (∀ result, outcome db call = some result → result.isUpdated = false) →
    (transition db call).jobs = db.jobs ∧ (transition db call).steps = db.steps

/-- From the state in which a claim leaves a job, every run of reports keeps the
guarantees. -/
theorem status_reports_consistent (db : Database) (job : Job) (hjob : job ∈ db.jobs)
    (hrunning : job.status = "running") (hsteps : db.stepsOf job ≠ [])
    (hpending : ∀ step ∈ db.stepsOf job, step.status = "pending") (calls : List Call) :
    StatusGuarantees job (run transition db calls) := by
  have hconsistent : Consistent db job := by
    obtain ⟨step, hstep⟩ := List.exists_mem_of_ne_nil _ hsteps
    have hopen : isTerminalRemediationStatus step.status = false := by
      rw [hpending step hstep]
      rfl
    have hderived : deriveJobStatus (stepStatuses db job) = .running :=
      deriveJobStatus_eq_running.mpr ⟨step.status, List.mem_map.mpr ⟨step, hstep, rfl⟩, hopen⟩
    rw [Consistent, hderived, hrunning]
    rfl
  obtain ⟨row, hrow, hid, horganization, hrowConsistent, -⟩ :=
    run_consistent db calls hjob hconsistent
  refine ⟨⟨row, hrow, hid, horganization, hrowConsistent⟩, ?_, ?_, ?_, ?_⟩
  · intro later step hstep hterminal
    exact run_step _ later hstep hterminal
  · intro later other hother hotherId hterminal
    have heq : other = row := job_eq_of_id _ hother hrow (hotherId.trans hid.symm)
    subst heq
    obtain ⟨last, hlast, hlastId, -, -, hkeep⟩ := run_consistent _ later hother hrowConsistent
    exact ⟨last, hlast, hlastId.trans hid, hkeep hterminal⟩
  · intro call status commandId organizationId agentId haggregate houtcome
    rcases transition_cases (run transition db calls) call with
      ⟨-, hrefused⟩ | ⟨selected, writes, haccepted⟩
    · have hupdated := hrefused _ houtcome
      cases hupdated
    · rw [haccepted.outcome_eq] at houtcome
      injection houtcome with hresult
      injection hresult with _ _ hselectedId
      have heq : selected = row := job_eq_of_id _ haccepted.mem hrow (hselectedId.trans hid.symm)
      have hterminal := haccepted.terminal_of_aggregate haggregate
      rw [stepsOf_congr _ hselectedId (heq ▸ horganization)] at hterminal
      exact hterminal
  · intro call hrefused
    rcases transition_cases (run transition db calls) call with
      ⟨hsame, -⟩ | ⟨selected, writes, haccepted⟩
    · rw [hsame]
      exact ⟨rfl, rfl⟩
    · have hupdated := hrefused _ haccepted.outcome_eq
      cases hupdated

/-! ## A claimed job with two steps -/

def claimedJob : Job where
  id := 7
  commandId := some "command-7"
  organizationId := "org"
  agentId := "agent"
  decisionId := none
  intentId := "talos.remediation"
  status := "running"
  dedupeKey := none
  requestedBy := "brain"
  metadata := .obj []
  requestedAt := 0
  startedAt := some 0
  finishedAt := none

def pendingStep (stepIndex : ℕ) : Step where
  id := stepIndex
  organizationId := "org"
  jobId := 7
  stepIndex := stepIndex
  command := "repair"
  status := "pending"
  evidence := none
  startedAt := none
  finishedAt := none

def claimedDatabase : Database where
  devices := [⟨"agent", "org", 0⟩]
  decisions := []
  jobs := [claimedJob]
  steps := [pendingStep 0, pendingStep 1]
  nextJobId := 8
  nextStepId := 2
  devices_key := by decide
  jobs_key := by decide
  jobs_commandId := by decide
  jobs_dedupeKey := by decide
  jobs_lt := by decide
  steps_key := by decide

def claimedSelector : Selector where
  identity := .commandId "command-7"
  agentId := "agent"
  organizationId := some "org"
  intentScope := .generic

def stepReport (now : Timestamp) (status : TerminalStatus) (stepIndex : ℕ) : Call where
  now := now
  selector := claimedSelector
  report := ⟨.terminal status, stepIndex, false, .null⟩

theorem status_reports_consistent_claimedDatabase :
    StatusGuarantees claimedJob (run transition claimedDatabase
      [stepReport 1 .failed 0, stepReport 2 .completed 1]) :=
  status_reports_consistent claimedDatabase claimedJob (List.mem_singleton.mpr rfl) rfl (by decide)
    (by decide) _

end Talos.Remediation
