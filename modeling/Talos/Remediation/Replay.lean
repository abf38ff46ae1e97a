import Talos.Remediation.Consistency

/-!
# Submitting a terminal report twice

After an accepted report its job is found again, with the derived status, and
the durable steps are the settled ones in the same order. Whether the same
terminal report is accepted a second time is then decided by two checks: the
derived job status against the report, and the reported step against the
report. `ReplaySafe` says, about the state before the first submission, when
both pass; `replay_iff` proves that the second submission is accepted and
changes no status exactly then.
-/

namespace Talos.Remediation

open JavaScript Relational Database Transition

/-- How far a step status decides the job: a failed step outranks a cancelled
one, and both outrank a completed one. -/
def severity (status : String) : ℕ :=
  if status = "failed" then 2 else if status = "cancelled" then 1 else 0

/-- The entry of `evidence.steps` for a step carries the given status. -/
def EntryReports (stepIndex : ℕ) (status : TerminalStatus) (value : Json) : Prop :=
  ∃ record, asRecord (some value) = some record ∧
    readRequiredStepIndex (coalesce (record.get? "stepIndex") (record.get? "step_index")) =
      some stepIndex ∧
    readString (record.get? "status") = some status.text

/-- When a terminal report can be repeated. Direct evidence: another step of the
job is still open, or none of the others outranks the reported status. Evidence
that lists steps: the entry of the reported step carries the report's status. -/
def ReplaySafe (db : Database) (job : Job) (report : StatusReport) (status : TerminalStatus) :
    Prop :=
  match (asRecord (some report.evidence)).bind (·.get? "steps") with
  | none =>
    (∃ step ∈ db.stepsOf job, step.stepIndex ≠ (report.stepIndex : ℤ) ∧
      isTerminalRemediationStatus step.status = false) ∨
    ∀ step ∈ db.stepsOf job, step.stepIndex ≠ (report.stepIndex : ℤ) →
      severity step.status ≤ severity status.text
  | some steps => ∃ value ∈ asArray (some steps), EntryReports report.stepIndex status value

/-- Two states with the same statuses in every job row and every step row. -/
def SameStatuses (db db' : Database) : Prop :=
  db'.jobs.map (fun job => (job.id, job.status)) = db.jobs.map (fun job => (job.id, job.status)) ∧
  db'.steps.map (fun step => (step.jobId, step.stepIndex, step.status)) =
    db.steps.map (fun step => (step.jobId, step.stepIndex, step.status))

/-! ## The state after the first submission -/

theorem selects_jobWrite (selector : Selector) (now : Timestamp) (status : ReportableStatus)
    (job : Job) : selector.selects ((jobWrite now status).apply job) = selector.selects job := rfl

theorem sortSteps_map (g : Step → Step) (hg : ∀ step, (g step).stepIndex = step.stepIndex)
    (steps : List Step) : sortSteps (steps.map g) = (sortSteps steps).map g := by
  unfold sortSteps
  exact (List.map_insertionSort _ _ g steps fun a _ b _ => by rw [hg a, hg b]).symm

namespace Accepted

variable {db : Database} {call : Call} {job : Job} {writes : List Write}

def after (db : Database) (call : Call) (job : Job) : Job :=
  (jobWrite call.now (deriveJobStatus (stepStatuses (transition db call) job))).apply job

theorem found_again (h : Accepted db call job writes) :
    (transition db call).jobs.find? call.selector.selects = some (after db call job) := by
  rw [h.jobs_eq, find?_update _ _ _ _ (selects_jobWrite call.selector call.now _), h.found]
  simp [after, stepStatuses]

theorem durable_again (h : Accepted db call job writes) :
    sortSteps ((transition db call).stepsOf (after db call job)) =
      (sortSteps (db.stepsOf job)).map (settle call.now job writes) := by
  have hsame : (transition db call).stepsOf (after db call job) =
      (transition db call).stepsOf job := stepsOf_congr _ rfl rfl
  rw [hsame, h.stepsOf_eq job, sortSteps_map _ (settle_stepIndex call.now job writes)]

end Accepted

/-! ## The second submission -/

variable {steps : List TerminalStepProjection}

theorem stepTransitionAllowed_self (status : ReportableStatus) :
    stepTransitionAllowed status.text status = true := by
  simp [stepTransitionAllowed]

theorem stepTransitionAllowed_terminal_iff (current next : TerminalStatus) :
    stepTransitionAllowed current.text (.terminal next) = true ↔ current = next := by
  constructor
  · intro h
    have heq := eq_of_stepTransitionAllowed (isTerminal_text current) h
    exact (TerminalStatus.text_injective heq).symm
  · rintro rfl
    exact stepTransitionAllowed_self (.terminal current)

/-! ### Aggregate evidence read again -/

/-- Reading the entries depends on the durable steps through their indices
alone. -/
theorem readReportedSteps_map (g : Step → Step) (hg : ∀ step, (g step).stepIndex = step.stepIndex)
    (durableSteps : List Step) (reported : List TerminalStepProjection) (values : List Json) :
    readReportedSteps (durableSteps.map g) reported values =
      readReportedSteps durableSteps reported values := by
  have hany (index : ℤ) : (durableSteps.map g).any (·.stepIndex = index) =
      durableSteps.any (·.stepIndex = index) := by
    rw [List.any_map]
    congr 1
    funext step
    simp [hg step]
  induction values generalizing reported with
  | nil => rfl
  | cons value values ih =>
    have hfirst : readReportedStep (durableSteps.map g) reported value =
        readReportedStep durableSteps reported value := by
      unfold readReportedStep
      simp only [hany]
    unfold readReportedSteps
    rw [hfirst]
    cases readReportedStep durableSteps reported value with
    | error error => rfl
    | ok step => exact ih (reported ++ [step])

variable {reported : List TerminalStepProjection}

/-- A step that already stands where the projection puts it is projected to the
same outcome. -/
theorem projectDurableStep_settled {reportedStatus : TerminalStatus} {durable durable' : Step}
    {step : TerminalStepProjection}
    (h : projectDurableStep reportedStatus reported durable = .ok step)
    (hindex : durable'.stepIndex = durable.stepIndex)
    (hstatus : durable'.status = step.status.text) :
    projectDurableStep reportedStatus reported durable' = .ok step := by
  have hself := stepTransitionAllowed_self (.terminal step.status)
  unfold projectDurableStep at h ⊢
  rw [hindex, hstatus]
  cases hfind : reported.find? (fun entry => entry.stepIndex = durable.stepIndex) with
  | some found =>
    simp only [hfind] at h ⊢
    split_ifs at h
    cases h
    simpa [ReportableStatus.text] using hself
  | none =>
    simp only [hfind] at h ⊢
    split_ifs at h with hcompleted hallowed
    cases h
    simpa [hcompleted, ReportableStatus.text] using hself

variable {durableSteps : List Step}

/-- An entry that was read carries the index and the status of its value. -/
def EntryOf (value : Json) (entry : TerminalStepProjection) : Prop :=
  ∃ stepIndex : ℕ, entry.stepIndex = stepIndex ∧ EntryReports stepIndex entry.status value

theorem entryReports_unique {value : Json} {m n : ℕ} {a b : TerminalStatus}
    (ha : EntryReports m a value) (hb : EntryReports n b value) : m = n ∧ a = b := by
  obtain ⟨record, hrecord, hindex, hstatus⟩ := ha
  obtain ⟨record', hrecord', hindex', hstatus'⟩ := hb
  rw [hrecord] at hrecord'
  cases hrecord'
  rw [hindex] at hindex'
  rw [hstatus] at hstatus'
  exact ⟨Option.some.inj hindex', TerminalStatus.text_injective (Option.some.inj hstatus')⟩

theorem readReportedStep_ok {value : Json} {entry : TerminalStepProjection}
    (h : readReportedStep durableSteps reported value = .ok entry) :
    EntryOf value entry ∧ ∀ other ∈ reported, other.stepIndex ≠ entry.stepIndex := by
  unfold readReportedStep at h
  cases hrecord : asRecord (some value) with
  | none => rw [hrecord] at h; cases h
  | some record =>
    simp only [hrecord] at h
    cases hindex : readRequiredStepIndex
        (coalesce (record.get? "stepIndex") (record.get? "step_index")) with
    | none => rw [hindex] at h; cases h
    | some stepIndex =>
      simp only [hindex] at h
      cases hstatus : (readString (record.get? "status")).bind terminalStatus? with
      | none => rw [hstatus] at h; cases h
      | some status =>
        simp only [hstatus] at h
        split_ifs at h with hknown hduplicate
        cases h
        obtain ⟨text, htext, hterminal⟩ := Option.bind_eq_some_iff.mp hstatus
        rw [terminalStatus?_eq_some.mp hterminal] at htext
        refine ⟨⟨stepIndex, rfl, record, hrecord, hindex, htext⟩, ?_⟩
        simpa using hduplicate

theorem readReportedSteps_ok {values : List Json} {before reported : List TerminalStepProjection}
    (h : readReportedSteps durableSteps before values = .ok reported)
    (hbefore : (before.map (·.stepIndex)).Nodup) :
    ∃ read, reported = before ++ read ∧ (∀ value ∈ values, ∃ entry ∈ read, EntryOf value entry) ∧
      (∀ entry ∈ read, ∃ value ∈ values, EntryOf value entry) ∧
      (reported.map (·.stepIndex)).Nodup := by
  induction values generalizing before with
  | nil =>
    cases h
    exact ⟨[], by simp, by simp, by simp, hbefore⟩
  | cons value values ih =>
    unfold readReportedSteps at h
    cases hfirst : readReportedStep durableSteps before value with
    | error error => rw [hfirst] at h; cases h
    | ok entry =>
      rw [hfirst] at h
      obtain ⟨hentry, hfresh⟩ := readReportedStep_ok hfirst
      have hnodup : ((before ++ [entry]).map (·.stepIndex)).Nodup := by
        rw [List.map_append, List.nodup_append]
        refine ⟨hbefore, by simp, ?_⟩
        intro a ha b hb hab
        obtain ⟨other, hother, rfl⟩ := List.mem_map.mp ha
        rw [List.map_singleton, List.mem_singleton] at hb
        exact hfresh other hother (hab.trans hb)
      obtain ⟨read, hread, hvalues, hentries, hdistinct⟩ := ih h hnodup
      refine ⟨entry :: read, by simp [hread], ?_, ?_, hdistinct⟩
      · simp only [List.forall_mem_cons, List.exists_mem_cons_iff]
        exact ⟨Or.inl hentry, fun other hother => Or.inr (hvalues other hother)⟩
      · simp only [List.forall_mem_cons, List.exists_mem_cons_iff]
        exact ⟨Or.inl hentry, fun other hother => Or.inr (hentries other hother)⟩

/-! ### The derived status against the report -/

variable {statuses : List String}

theorem deriveJobStatus_of_terminal
    (h : ∀ status ∈ statuses, isTerminalRemediationStatus status = true) :
    deriveJobStatus statuses =
      if "failed" ∈ statuses then .terminal .failed
      else if "cancelled" ∈ statuses then .terminal .cancelled else .terminal .completed := by
  have hall : statuses.all isTerminalRemediationStatus = true := List.all_eq_true.mpr h
  simp [deriveJobStatus, hall]

theorem TerminalStatus.forall {P : TerminalStatus → Prop} :
    (∀ status, P status) ↔ P .completed ∧ P .failed ∧ P .cancelled := by
  refine ⟨fun h => ⟨h _, h _, h _⟩, ?_⟩
  rintro ⟨hcompleted, hfailed, hcancelled⟩ (_ | _ | _) <;> assumption

variable {status : TerminalStatus}

/-- The derived status is the one that no other outranks. -/
theorem deriveJobStatus_eq_terminal
    (hall : ∀ other ∈ statuses, isTerminalRemediationStatus other = true)
    (hmem : status.text ∈ statuses) : deriveJobStatus statuses = .terminal status ↔
      ∀ other ∈ statuses, severity other ≤ severity status.text := by
  have hterminal : (∀ other ∈ statuses, severity other ≤ severity status.text) ↔
      ∀ other : TerminalStatus, other.text ∈ statuses →
        severity other.text ≤ severity status.text := by
    refine ⟨fun h other => h other.text, fun h other hother => ?_⟩
    obtain ⟨terminal, rfl⟩ := isTerminal_iff.mp (hall other hother)
    exact h terminal hother
  rw [hterminal, TerminalStatus.forall, deriveJobStatus_of_terminal hall]
  by_cases hfailed : "failed" ∈ statuses <;> by_cases hcancelled : "cancelled" ∈ statuses <;>
    cases status <;> simp_all [severity, TerminalStatus.text]

/-- With the reported status among the statuses, the derived status lets the
report pass again when a status is still open or none outranks the reported
one. -/
theorem transitionAllowed_derive_iff (hmem : status.text ∈ statuses) :
    transitionAllowed (deriveJobStatus statuses).text (.terminal status) = true ↔
      (∃ other ∈ statuses, isTerminalRemediationStatus other = false) ∨
        ∀ other ∈ statuses, severity other ≤ severity status.text := by
  by_cases hopen : ∃ other ∈ statuses, isTerminalRemediationStatus other = false
  · have hderived := deriveJobStatus_eq_running.mpr hopen
    simp [transitionAllowed, hderived, ReportableStatus.text, hopen]
  · have hall : ∀ other ∈ statuses, isTerminalRemediationStatus other = true := by
      intro other hother
      by_contra hnot
      exact hopen ⟨other, hother, by simpa using hnot⟩
    rw [or_iff_right hopen, ← deriveJobStatus_eq_terminal hall hmem]
    cases hderived : deriveJobStatus statuses with
    | running => exact absurd (deriveJobStatus_eq_running.mp hderived) hopen
    | terminal derived =>
      have hsame : derived.text = status.text ↔ derived = status :=
        ⟨TerminalStatus.text_injective, fun h => h ▸ rfl⟩
      simp [transitionAllowed, ReportableStatus.text, derived.text_ne_running, hsame]

/-! ### Statuses after a repeated report -/

/-- A repeated report moves nothing: a terminal row admits its own status only,
and every row that the report names is terminal after the first submission. -/
theorem sameStatuses_of_accepted {db : Database} {call : Call} {job : Job} {writes : List Write}
    (h : Accepted db call job writes) (hconsistent : Consistent db job)
    (hnamed : ∀ write ∈ writes, ∀ step ∈ db.stepsOf job, step.stepIndex = write.stepIndex →
      isTerminalRemediationStatus step.status = true) :
    SameStatuses db (transition db call) := by
  have hkeep : ∀ step ∈ db.steps, (settle call.now job writes step).status = step.status := by
    intro step hstep
    rcases settle_status call.now job writes step with ⟨-, hsame⟩ | ⟨write, hwrite, htarget, -⟩
    · exact hsame
    · have hparts : owned job step = true ∧ step.stepIndex = write.stepIndex := by
        simpa [Write.target] using htarget
      have hmem : step ∈ db.stepsOf job := List.mem_filter.mpr ⟨hstep, hparts.1⟩
      exact h.settle_status_of_terminal hstep (hnamed write hwrite step hmem hparts.2)
  have hstatuses : stepStatuses (transition db call) job = stepStatuses db job := by
    rw [stepStatuses, h.stepsOf_eq job, List.map_map, stepStatuses]
    apply List.map_congr_left
    intro step hstep
    exact hkeep step (mem_stepsOf.mp hstep).1
  constructor
  · rw [h.jobs_eq]
    unfold update
    rw [List.map_map]
    apply List.map_congr_left
    intro row hrow
    by_cases hid : row.id = job.id
    · have heq : row = job := db.job_eq_of_id hrow h.mem hid
      have hstatus :
          (deriveJobStatus (stepStatuses (transition db call) job)).text = job.status := by
        rw [hstatuses]
        exact hconsistent.symm
      rw [stepStatuses] at hstatus
      simp [heq, jobWrite, hstatus]
    · simp [hid]
  · rw [h.steps_eq, List.map_map]
    apply List.map_congr_left
    intro step hstep
    have hplace := place_settle call.now job writes step
    simp only [Step.place, Prod.mk.injEq] at hplace
    simp [hplace, hkeep step hstep]

/-! ## Repeating a direct report -/

/-- The same call at a later time. -/
def Call.again (call : Call) (later : Timestamp) : Call := { call with now := later }

@[simp] theorem Call.again_report (call : Call) (later : Timestamp) :
    (call.again later).report = call.report := rfl

/-- Submitting the call again is accepted and changes no status. -/
def Replays (db : Database) (call : Call) : Prop :=
  (∃ result, outcome db call = some result ∧ result.isUpdated = true) ∧
    SameStatuses db (transition db call)

theorem projectionOf_direct_congr {report : StatusReport}
    (h : projectionOf report durableSteps = .direct) (other : List Step) :
    projectionOf report other = .direct := by
  unfold projectionOf at h ⊢
  cases hstatus : report.status with
  | running => rfl
  | terminal status =>
    simp only [hstatus] at h ⊢
    unfold terminalStepProjection at h ⊢
    split at h
    · exact h
    · exact absurd h (aggregateProjection_ne_direct _ _ _ _)
    · cases h

theorem settle_singleton_status (now : Timestamp) (job : Job) (write : Write) {step : Step}
    (howned : owned job step = true) :
    (settle now job [write] step).status =
      if step.stepIndex = write.stepIndex then write.status.text else step.status := by
  by_cases hindex : step.stepIndex = write.stepIndex
  · have htarget : write.target job step = true := by simp [Write.target, howned, hindex]
    rw [settle_cons, settle_nil, Write.apply_status_of_target now job htarget, if_pos hindex]
  · have htarget : write.target job step = false := by simp [Write.target, hindex]
    rw [settle_cons, settle_nil, Write.apply_of_not_target now job htarget, if_neg hindex]

namespace Accepted

variable {db : Database} {call : Call} {job : Job} {writes : List Write} {status : TerminalStatus}

/-- Two checks decide about the repetition of a report whose steps are settled: the derived
job status and the reported step against the report. -/
theorem replays_iff (h : Accepted db call job writes) (later : Timestamp)
    (hwrites : call.report.Writes
      (sortSteps ((transition db call).stepsOf (after db call job))) writes)
    (hnamed : ∀ step ∈ (transition db call).stepsOf job,
      (∃ write ∈ writes, step.stepIndex = write.stepIndex) →
        isTerminalRemediationStatus step.status = true)
    {target : Step} (htarget : target ∈ db.stepsOf job)
    (hindex : target.stepIndex = (call.report.stepIndex : ℤ)) :
    Replays (transition db call) (call.again later) ↔
      transitionAllowed (after db call job).status call.report.status = true ∧
        stepTransitionAllowed (settle call.now job writes target).status call.report.status =
          true := by
  have hsame : (transition db call).stepsOf (after db call job) =
      (transition db call).stepsOf job := stepsOf_congr _ rfl rfl
  have hsettled : settle call.now job writes target ∈
      (transition db call).stepsOf (after db call job) := by
    rw [hsame, h.stepsOf_eq job]
    exact List.mem_map_of_mem htarget
  have hsettledIndex := (settle_stepIndex call.now job writes target).trans hindex
  constructor
  · rintro ⟨hupdated, -⟩
    obtain ⟨job', writes', hagain⟩ := accepted_of_updated hupdated
    obtain rfl : job' = after db call job := Option.some.inj (hagain.found.symm.trans h.found_again)
    obtain ⟨found, hfound, hfoundIndex, hallowed⟩ := hagain.targetAllowed
    rw [step_eq_of_index _ hfound hsettled (hfoundIndex.trans hsettledIndex.symm)] at hallowed
    exact ⟨hagain.jobAllowed, hallowed⟩
  · rintro ⟨hjob, hallowed⟩
    have hagain : Accepted (transition db call) (call.again later) (after db call job) writes :=
      .of_checks h.found_again hjob ⟨_, hsettled, hsettledIndex, hallowed⟩ hwrites h.storable
    refine ⟨⟨_, hagain.outcome_eq, rfl⟩, sameStatuses_of_accepted hagain rfl ?_⟩
    intro write hwrite step hstep hstepIndex
    rw [hsame] at hstep
    exact hnamed step hstep ⟨write, hwrite, hstepIndex⟩

theorem replay_iff_direct (h : Accepted db call job writes)
    (hstatus : call.report.status = .terminal status)
    (hdirect : projectionOf call.report (sortSteps (db.stepsOf job)) = .direct)
    (hwrites : writes = [call.report.write]) (later : Timestamp) :
    Replays (transition db call) (call.again later) ↔ ReplaySafe db job call.report status := by
  subst hwrites
  have hsettled (step : Step) (hstep : step ∈ db.stepsOf job) :
      (settle call.now job [call.report.write] step).status =
        if step.stepIndex = (call.report.stepIndex : ℤ) then status.text else step.status := by
    rw [settle_singleton_status call.now job _ (owned_of_mem_stepsOf hstep)]
    simp [StatusReport.write, hstatus, ReportableStatus.text]
  obtain ⟨target, htarget, htargetIndex, -⟩ := h.targetAllowed
  have htargetStatus : (settle call.now job [call.report.write] target).status = status.text := by
    rw [hsettled target htarget, if_pos htargetIndex]
  have hmem : status.text ∈ stepStatuses (transition db call) job := by
    rw [stepStatuses, h.stepsOf_eq job, List.map_map]
    exact List.mem_map.mpr ⟨target, htarget, htargetStatus⟩
  -- the job row carries the status derived from the settled steps
  have hjob : transitionAllowed (after db call job).status call.report.status = true ↔
      ReplaySafe db job call.report status := by
    have hnone : (asRecord (some call.report.evidence)).bind (·.get? "steps") = none := by
      have hnot := not_isAggregate_of_projectionOf_direct hdirect
      simpa [StatusReport.isAggregate, hstatus] using hnot
    have hderive := transitionAllowed_derive_iff hmem
    rw [hstatus]
    refine hderive.trans ?_
    unfold ReplaySafe
    rw [hnone, stepStatuses, h.stepsOf_eq job, List.map_map]
    simp only [List.mem_map, Function.comp_apply, exists_exists_and_eq_and,
      forall_exists_index, and_imp, forall_apply_eq_imp_iff₂]
    refine or_congr ⟨?_, ?_⟩ ⟨?_, ?_⟩
    · rintro ⟨step, hstep, hopen⟩
      rw [hsettled step hstep] at hopen
      split_ifs at hopen with hindex
      · rw [isTerminal_text] at hopen
        cases hopen
      · exact ⟨step, hstep, hindex, hopen⟩
    · rintro ⟨step, hstep, hindex, hopen⟩
      refine ⟨step, hstep, ?_⟩
      rw [hsettled step hstep, if_neg hindex]
      exact hopen
    · intro hall step hstep hindex
      have hle := hall step hstep
      rw [hsettled step hstep, if_neg hindex] at hle
      exact hle
    · intro hall step hstep
      rw [hsettled step hstep]
      split_ifs with hindex
      · exact le_rfl
      · exact hall step hstep hindex
  have hself : stepTransitionAllowed (settle call.now job [call.report.write] target).status
      call.report.status = true := by
    rw [htargetStatus, hstatus]
    exact stepTransitionAllowed_self (.terminal status)
  rw [h.replays_iff later (Or.inl ⟨projectionOf_direct_congr hdirect _, rfl⟩) ?_ htarget
    htargetIndex, and_iff_left hself, hjob]
  rintro step hstep ⟨write, hwrite, hindex⟩
  rw [List.mem_singleton.mp hwrite] at hindex
  rw [h.stepsOf_eq job] at hstep
  obtain ⟨old, hold, rfl⟩ := List.mem_map.mp hstep
  rw [settle_stepIndex] at hindex
  rw [hsettled old hold, if_pos (show old.stepIndex = (call.report.stepIndex : ℤ) from hindex)]
  exact isTerminal_text status

end Accepted

/-! ## Repeating an aggregate report -/

variable {stepIndex : ℕ}

theorem mem_of_projectDurableStep {durable : Step} {step : TerminalStepProjection}
    (h : projectDurableStep status reported durable = .ok step)
    (hindex : durable.stepIndex = (stepIndex : ℤ))
    (hreported : ∃ entry ∈ reported, entry.stepIndex = (stepIndex : ℤ)) : step ∈ reported := by
  unfold projectDurableStep at h
  cases hfind : reported.find? (fun entry => entry.stepIndex = durable.stepIndex) with
  | none =>
    obtain ⟨entry, hentry, hentryIndex⟩ := hreported
    have hnot := List.find?_eq_none.mp hfind entry hentry
    simp [hentryIndex, hindex] at hnot
  | some found =>
    simp only [hfind] at h
    split_ifs at h
    cases h
    exact List.mem_of_find?_eq_some hfind

/-- A value reports a status for the step exactly when the step's entry carries
that status: indices are distinct among the entries. -/
theorem entryReports_iff {values : List Json}
    (hread : readReportedSteps durableSteps [] values = .ok reported)
    {found : TerminalStepProjection} (hfound : found ∈ reported)
    (hindex : found.stepIndex = (stepIndex : ℤ)) (status : TerminalStatus) :
    (∃ value ∈ asArray (some (.arr values)), EntryReports stepIndex status value) ↔
      found.status = status := by
  obtain ⟨read, rfl, hvalues, hentries, hnodup⟩ := readReportedSteps_ok hread (by simp)
  constructor
  · rintro ⟨value, hvalue, hreports⟩
    obtain ⟨entry, hentry, index, hentryIndex, hentryReports⟩ := hvalues value hvalue
    obtain ⟨rfl, hstatus⟩ := entryReports_unique hentryReports hreports
    rw [← List.inj_on_of_nodup_map hnodup hentry hfound (hentryIndex.trans hindex.symm)]
    exact hstatus
  · rintro rfl
    obtain ⟨value, hvalue, index, hentryIndex, hentry⟩ := hentries found hfound
    have hsame : (index : ℤ) = stepIndex := hentryIndex.symm.trans hindex
    rw [Int.natCast_inj.mp hsame] at hentry
    exact ⟨value, hvalue, hentry⟩

namespace Accepted

variable {db : Database} {call : Call} {job : Job} {writes : List Write} {status : TerminalStatus}

theorem replay_iff_aggregate (h : Accepted db call job writes)
    (hstatus : call.report.status = .terminal status)
    (haggregate : projectionOf call.report (sortSteps (db.stepsOf job)) = .aggregate steps)
    (hwrites : writes = steps.map TerminalStepProjection.write) (later : Timestamp) :
    Replays (transition db call) (call.again later) ↔ ReplaySafe db job call.report status := by
  subst hwrites
  obtain ⟨status', values, hstatus', hvalues, hprojection⟩ := projectionOf_aggregate haggregate
  rw [hstatus] at hstatus'
  cases hstatus'
  obtain ⟨reported, hread, hreported, hproject, hderive⟩ := aggregateProjection_eq hprojection
  have hentries := projectDurableSteps_eq_ok.mp hproject
  -- the second submission projects the settled steps to the same outcomes
  have hagain : projectionOf call.report
      (sortSteps ((transition db call).stepsOf (after db call job))) = .aggregate steps := by
    have hsettled : projectDurableSteps status reported ((sortSteps (db.stepsOf job)).map
        (settle call.now job (steps.map TerminalStepProjection.write))) = .ok steps := by
      rw [projectDurableSteps_eq_ok, List.map_map, ← hentries]
      apply List.map_congr_left
      intro durable hdurable
      obtain ⟨step, -, hentry, hsame⟩ := settled_entry call.now hproject (mem_sortSteps.mp hdurable)
      rw [Function.comp_apply, hentry]
      exact projectDurableStep_settled hentry (settle_stepIndex _ _ _ durable) hsame
    have hany : reported.any (·.stepIndex = (call.report.stepIndex : ℤ)) = true := by
      simpa using hreported
    rw [h.durable_again, projectionOf, hstatus]
    simp only [terminalStepProjection, hvalues, aggregateProjection,
      readReportedSteps_map _ (settle_stepIndex call.now job _), hread, hany, hsettled, hderive]
    simp
  have hstatuses : deriveJobStatus (stepStatuses (transition db call) job) = .terminal status := by
    rw [← hderive]
    apply deriveJobStatus_perm
    have hmap := congrArg (List.map fun projection : Except String TerminalStepProjection =>
      match projection with
      | .ok step => step.status.text
      | .error _ => "") hentries
    rw [List.map_map, List.map_map] at hmap
    rw [show steps.map (·.status.text) = _ from hmap.symm, stepStatuses, h.stepsOf_eq job,
      List.map_map]
    refine List.Perm.trans ?_ ((List.perm_insertionSort _ (db.stepsOf job)).map _).symm
    refine List.Perm.of_eq (List.map_congr_left fun durable hdurable => ?_)
    obtain ⟨step, -, hentry, hsame⟩ := settled_entry call.now hproject hdurable
    rw [Function.comp_apply, Function.comp_apply, hentry]
    exact hsame
  have hjob : transitionAllowed (after db call job).status call.report.status = true := by
    have hafter : (after db call job).status = status.text := by
      change (deriveJobStatus (stepStatuses (transition db call) job)).text = status.text
      rw [hstatuses]
      rfl
    rw [hafter, hstatus]
    simp [transitionAllowed, ReportableStatus.text]
  -- the reported step carries the status of its own entry
  obtain ⟨target, htarget, htargetIndex, -⟩ := h.targetAllowed
  obtain ⟨found, -, hentry, htargetStatus⟩ := settled_entry call.now hproject htarget
  have hfound : found ∈ reported := mem_of_projectDurableStep hentry htargetIndex hreported
  have hfoundIndex := (projectDurableStep_ok hentry).1.trans htargetIndex
  rw [h.replays_iff later (Or.inr ⟨steps, hagain, rfl⟩) ?_ htarget htargetIndex,
    and_iff_right hjob, htargetStatus, hstatus, stepTransitionAllowed_terminal_iff, ReplaySafe,
    hvalues, ← entryReports_iff hread hfound hfoundIndex status]
  intro step hstep _
  exact h.terminal_of_aggregate (isAggregate_of_projectionOf_aggregate haggregate) step hstep

end Accepted

/-- An accepted terminal report, submitted again at any later time, is accepted
and changes no status exactly when the job it found was safe to repeat on. -/
theorem replay_iff (db : Database) (call : Call) (later : Timestamp) (status : TerminalStatus)
    (hstatus : call.report.status = .terminal status)
    (hupdated : ∃ result, outcome db call = some result ∧ result.isUpdated = true) :
    Replays (transition db call) (call.again later) ↔
      ∃ job, db.jobs.find? call.selector.selects = some job ∧
        ReplaySafe db job call.report status := by
  obtain ⟨job, writes, haccepted⟩ := accepted_of_updated hupdated
  have hfound : (∃ job, db.jobs.find? call.selector.selects = some job ∧
      ReplaySafe db job call.report status) ↔ ReplaySafe db job call.report status := by
    simp [haccepted.found]
  rw [hfound]
  rcases haccepted.writes_eq with ⟨hdirect, hwrites⟩ | ⟨steps, haggregate, hwrites⟩
  · exact haccepted.replay_iff_direct hstatus hdirect hwrites later
  · exact haccepted.replay_iff_aggregate hstatus haggregate hwrites later

theorem replay_iff_claimedDatabase :
    Replays (transition claimedDatabase (stepReport 1 .completed 1))
        ((stepReport 1 .completed 1).again 2) ↔
      ∃ job, claimedDatabase.jobs.find? claimedSelector.selects = some job ∧
        ReplaySafe claimedDatabase job (stepReport 1 .completed 1).report .completed :=
  replay_iff claimedDatabase (stepReport 1 .completed 1) 2 .completed rfl
    ⟨.updated (.terminal .completed) .running 7 (some "command-7") "org" "agent", by decide, rfl⟩

/-- Step 0 failed, so completing step 1 closes the job as failed; the same report
is then refused against the job's status. -/
theorem not_replays_after_failed_step :
    outcome (run transition claimedDatabase [stepReport 1 .failed 0]) (stepReport 2 .completed 1) =
      some (.updated (.terminal .completed) (.terminal .failed) 7 (some "command-7") "org"
        "agent") ∧
    outcome (run transition claimedDatabase [stepReport 1 .failed 0, stepReport 2 .completed 1])
      ((stepReport 2 .completed 1).again 3) = some (.conflict "failed") ∧
    ¬ Replays (run transition claimedDatabase [stepReport 1 .failed 0, stepReport 2 .completed 1])
      ((stepReport 2 .completed 1).again 3) := by
  have hconflict : outcome
      (run transition claimedDatabase [stepReport 1 .failed 0, stepReport 2 .completed 1])
      ((stepReport 2 .completed 1).again 3) = some (.conflict "failed") := by decide
  refine ⟨by decide, hconflict, ?_⟩
  rintro ⟨⟨result, hresult, hupdated⟩, -⟩
  rw [hconflict] at hresult
  cases hresult
  cases hupdated

end Talos.Remediation
