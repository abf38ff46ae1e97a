import Talos.Remediation.Consistency
import Talos.Remediation.Project

/-!
# What a projection does to a started job

A started job keeps its row through every projection, and the step statement
leaves an existing step row of a started job as it is. It does insert a row for
an index that has none: `Extends` says when a payload does that, and
`project_keeps_started_iff` that nothing else of a started job can change.
-/

namespace Talos.Remediation

open JavaScript Relational Database

/-- Every step row of a job, whatever its organization. -/
def rowsOf (db : Database) (jobId : ℕ) : List Step :=
  db.steps.filter fun step => step.jobId = jobId

def hasRow (db : Database) (jobId : ℕ) (stepIndex : ℤ) : Prop :=
  ∃ step ∈ db.steps, step.jobId = jobId ∧ step.stepIndex = stepIndex

/-- The entries of the payload that reach the step statement. -/
def stepInputs : ℕ → List Json → List StepInput
  | _, [] => []
  | i, value :: values => (readStepInput i value).toList ++ stepInputs (i + 1) values

/-! ## The step statement -/

section UpsertStep

variable {db db' : Database} {organizationId : String} {jobId : ℕ} {refreshSteps : Bool}
  {input : StepInput} {inserted : ℕ}

theorem insertStep_ok {values : Step} (h : db.insertStep values = .ok db') :
    db'.jobs = db.jobs ∧ db'.steps = db.steps ++ [{ values with id := db.nextStepId }] := by
  unfold insertStep at h
  dsimp only at h
  split_ifs at h
  cases h
  exact ⟨rfl, rfl⟩

theorem insertStep_of_not_hasRow (organizationId : String) (h : ¬ hasRow db jobId input.stepIndex) :
    ∃ db', db.insertStep (stepValues organizationId jobId input) = .ok db' := by
  have hfree : taken Step.key db.steps
      { stepValues organizationId jobId input with id := db.nextStepId } = false := by
    simp only [taken, Step.key, stepValues, Option.isSome_some, Bool.true_and, Option.some.injEq,
      Prod.mk.injEq, List.any_eq_false, decide_eq_true_eq]
    rintro step hstep ⟨hjobId, hindex⟩
    exact h ⟨step, hstep, hjobId, hindex⟩
  unfold insertStep
  rw [dif_pos hfree]
  exact ⟨_, rfl⟩

theorem not_hasRow_of_find? {stepIndex : ℤ}
    (h : db.steps.find? (fun step => step.jobId = jobId && step.stepIndex = stepIndex) = none) :
    ¬ hasRow db jobId stepIndex := by
  rintro ⟨step, hstep, hjobId, hindex⟩
  have hnot := List.find?_eq_none.mp h step hstep
  simp [hjobId, hindex] at hnot

/-- What the step statement can do. -/
theorem upsertStep_ok
    (h : upsertStep db organizationId jobId refreshSteps input = .ok (db', inserted)) :
    stepParameterError input = none ∧ db'.jobs = db.jobs ∧
      ((hasRow db jobId input.stepIndex ∧ (db'.steps = db.steps ∨ db'.steps = update db.steps
            (fun row => row.jobId = jobId && row.stepIndex = input.stepIndex)
            (refreshStep refreshSteps input).apply)) ∨
        (¬ hasRow db jobId input.stepIndex ∧ db'.steps = db.steps ++
          [{ stepValues organizationId jobId input with id := db.nextStepId }])) := by
  unfold upsertStep at h
  cases herror : stepParameterError input with
  | some error => simp [herror] at h
  | none =>
    simp only [herror] at h
    cases hfind : db.steps.find? fun step =>
        step.jobId = jobId && step.stepIndex = input.stepIndex with
    | some step =>
      have hrow : hasRow db jobId input.stepIndex := by
        have hkey := List.find?_some hfind
        simp only [Bool.and_eq_true, decide_eq_true_eq] at hkey
        exact ⟨step, List.mem_of_find?_eq_some hfind, hkey.1, hkey.2⟩
      simp only [hfind] at h
      split_ifs at h
      · cases h
        exact ⟨rfl, rfl, Or.inl ⟨hrow, Or.inr rfl⟩⟩
      · cases h
        exact ⟨rfl, rfl, Or.inl ⟨hrow, Or.inl rfl⟩⟩
    | none =>
      simp only [hfind] at h
      cases hinsert : db.insertStep (stepValues organizationId jobId input) with
      | error error => simp [hinsert] at h
      | ok stored =>
        simp only [hinsert, Except.ok.injEq, Prod.mk.injEq] at h
        obtain ⟨rfl, -⟩ := h
        obtain ⟨hjobs, hsteps⟩ := insertStep_ok hinsert
        exact ⟨rfl, hjobs, Or.inr ⟨not_hasRow_of_find? hfind, hsteps⟩⟩

theorem upsertStep_exists_ok (db : Database) (organizationId : String) (jobId : ℕ)
    (refreshSteps : Bool) (h : stepParameterError input = none) :
    ∃ db' inserted,
      upsertStep db organizationId jobId refreshSteps input = .ok (db', inserted) := by
  unfold upsertStep
  simp only [h]
  cases hfind : db.steps.find? fun step =>
      step.jobId = jobId && step.stepIndex = input.stepIndex with
  | some step =>
    dsimp only
    split_ifs
    · exact ⟨_, _, rfl⟩
    · exact ⟨_, _, rfl⟩
  | none =>
    obtain ⟨db', hinsert⟩ := insertStep_of_not_hasRow organizationId (not_hasRow_of_find? hfind)
    simp only [hinsert]
    exact ⟨_, _, rfl⟩

theorem refreshStep_false (input : StepInput) (step : Step) :
    (refreshStep false input).apply step = step := rfl

/-- The statement touches only the rows of its own job. -/
theorem upsertStep_rowsOf
    (h : upsertStep db organizationId jobId refreshSteps input = .ok (db', inserted))
    {other : ℕ} (hother : other ≠ jobId) : rowsOf db' other = rowsOf db other := by
  obtain ⟨-, -, ⟨-, hsame | hupdate⟩ | ⟨-, hinsert⟩⟩ := upsertStep_ok h
  · rw [rowsOf, hsame, rowsOf]
  · rw [rowsOf, hupdate, filter_update, rowsOf]
    · apply update_eq_self
      intro row hrow htarget
      have hjobId : row.jobId = other := by simpa using (List.mem_filter.mp hrow).2
      simp [hjobId, hother] at htarget
    · intro row _
      rfl
  · have hnot : ¬ jobId = other := fun heq => hother heq.symm
    rw [rowsOf, hinsert, rowsOf, List.filter_append]
    simp [stepValues, hnot]

/-- Without a refresh the statement changes nothing where the row exists. -/
theorem upsertStep_frozen
    (h : upsertStep db organizationId jobId false input = .ok (db', inserted)) :
    (hasRow db jobId input.stepIndex ∧ db'.steps = db.steps) ∨
      (¬ hasRow db jobId input.stepIndex ∧ db'.steps = db.steps ++
        [{ stepValues organizationId jobId input with id := db.nextStepId }]) := by
  obtain ⟨-, -, ⟨hrow, hsame | hupdate⟩ | hinsert⟩ := upsertStep_ok h
  · exact Or.inl ⟨hrow, hsame⟩
  · refine Or.inl ⟨hrow, ?_⟩
    rw [hupdate]
    exact update_eq_self fun row _ _ => refreshStep_false input row
  · exact Or.inr hinsert

end UpsertStep

/-! ## The loop over the steps -/

section UpsertSteps

variable {organizationId : String} {jobId : ℕ} {refreshSteps : Bool}

theorem upsertSteps_frame {db db' : Database} {n n' i : ℕ} {values : List Json}
    (h : upsertSteps organizationId jobId refreshSteps db n i values = .ok (db', n')) :
    db'.jobs = db.jobs ∧ ∀ other, other ≠ jobId → rowsOf db' other = rowsOf db other := by
  induction values generalizing db n i with
  | nil =>
    cases h
    exact ⟨rfl, fun _ _ => rfl⟩
  | cons value values ih =>
    unfold upsertSteps at h
    cases hread : readStepInput i value with
    | none =>
      simp only [hread] at h
      exact ih h
    | some input =>
      simp only [hread] at h
      cases hstep : upsertStep db organizationId jobId refreshSteps input with
      | error error => simp [hstep] at h
      | ok written =>
        simp only [hstep] at h
        obtain ⟨hjobs, hrows⟩ := ih h
        refine ⟨hjobs.trans (upsertStep_ok hstep).2.1, ?_⟩
        intro other hother
        rw [hrows other hother, upsertStep_rowsOf hstep hother]

/-- The loop succeeds exactly when every entry has parameters that are
accepted. -/
theorem upsertSteps_ok_iff (organizationId : String) (jobId : ℕ) (refreshSteps : Bool)
    (db : Database) (n i : ℕ) (values : List Json) :
    (∃ written, upsertSteps organizationId jobId refreshSteps db n i values = .ok written) ↔
      ∀ input ∈ stepInputs i values, stepParameterError input = none := by
  induction values generalizing db n i with
  | nil => simp [upsertSteps, stepInputs]
  | cons value values ih =>
    unfold upsertSteps stepInputs
    cases hread : readStepInput i value with
    | none => simpa using ih db n (i + 1)
    | some input =>
      simp only [Option.toList_some, List.singleton_append, List.forall_mem_cons]
      cases herror : stepParameterError input with
      | some error => simp [upsertStep, herror]
      | none =>
        obtain ⟨db', inserted, hok⟩ :=
          upsertStep_exists_ok db organizationId jobId refreshSteps herror
        simp only [hok, true_and]
        exact ih db' (n + inserted) (i + 1)

/-- Without a refresh the loop appends rows: none when every index has one, and
otherwise each index has one afterwards. -/
theorem upsertSteps_frozen {db db' : Database} {n n' i : ℕ} {values : List Json}
    (h : upsertSteps organizationId jobId false db n i values = .ok (db', n')) :
    db.steps ⊆ db'.steps ∧ (∀ input ∈ stepInputs i values, hasRow db' jobId input.stepIndex) ∧
      ((∀ input ∈ stepInputs i values, hasRow db jobId input.stepIndex) →
        db'.steps = db.steps) := by
  induction values generalizing db n i with
  | nil =>
    cases h
    simp [stepInputs]
  | cons value values ih =>
    unfold upsertSteps at h
    unfold stepInputs
    cases hread : readStepInput i value with
    | none =>
      simp only [hread] at h
      simpa using ih h
    | some input =>
      simp only [hread] at h
      cases hstep : upsertStep db organizationId jobId false input with
      | error error => simp [hstep] at h
      | ok written =>
        obtain ⟨middle, inserted⟩ := written
        simp only [hstep] at h
        obtain ⟨hsubset, hall, hsame⟩ := ih h
        simp only [Option.toList_some, List.singleton_append, List.forall_mem_cons]
        have hgrow (hmiddle : hasRow middle jobId input.stepIndex) :
            hasRow db' jobId input.stepIndex := by
          obtain ⟨step, hmem, hkey⟩ := hmiddle
          exact ⟨step, hsubset hmem, hkey⟩
        rcases upsertStep_frozen hstep with ⟨hrow, hsteps⟩ | ⟨hnone, hsteps⟩
        · have hmiddle (stepIndex : ℤ) :
              hasRow middle jobId stepIndex ↔ hasRow db jobId stepIndex := by
            rw [hasRow, hsteps, hasRow]
          rw [hsteps] at hsubset hsame
          refine ⟨hsubset, ⟨hgrow ((hmiddle _).mpr hrow), hall⟩, ?_⟩
          rintro ⟨-, htail⟩
          exact hsame fun other hother => (hmiddle _).mpr (htail other hother)
        · refine ⟨fun step hmem => hsubset (hsteps ▸ List.mem_append_left _ hmem),
            ⟨hgrow ?_, hall⟩, fun hrows => absurd hrows.1 hnone⟩
          rw [hasRow, hsteps]
          exact ⟨_, List.mem_append_right _ (List.mem_singleton.mpr rfl), rfl, rfl⟩

end UpsertSteps

/-! ## The job statement -/

/-- The payload names the stored job: the row that its statement conflicts with
is this one, and the `WHERE` clause accepts it. -/
def RemediationJobInsertOptions.names (options : RemediationJobInsertOptions) (job : Job) : Bool :=
  (match truthy options.commandId, truthy options.dedupeKey with
    | some commandId, some dedupeKey =>
      job.dedupeKey = some dedupeKey && job.commandId = some commandId
    | some commandId, none => job.commandId = some commandId
    | none, some dedupeKey => job.dedupeKey = some dedupeKey && job.commandId.isNone
    | none, none => false) &&
  job.organizationId = options.organizationId && job.agentId = options.agentId &&
    job.intentId = options.intentId

/-- The assignment leaves every started row as it is. -/
def Freezes (set : JobAssignment) : Prop :=
  ∀ job, isStarted job.status = true → set.apply job = job

theorem refreshCommand_freezes (excluded : Job) : Freezes (refreshCommand excluded) := by
  intro job h
  exact if_pos h

theorem refreshDedupe_freezes (excluded : Job) : Freezes (refreshDedupe excluded) := by
  intro job h
  exact if_pos h

variable {db : Database}

theorem insertJob_ok {db' : Database} {values row : Job}
    (h : db.insertJob values = .ok (db', row)) :
    db'.jobs = db.jobs ++ [row] ∧ row = { values with id := db.nextJobId } ∧
      db'.steps = db.steps := by
  unfold insertJob at h
  dsimp only at h
  split_ifs at h
  cases h
  exact ⟨rfl, rfl, rfl⟩

/-- What the job statement can do when it returns a row: refresh the row it
conflicts with, or append a new one. -/
theorem upsertJob_ok {db' : Database} {values row : Job} {conflicts owned : Job → Bool}
    {set : JobAssignment} (h : upsertJob db values conflicts owned set = .ok (db', some row)) :
    (∃ found ∈ db.jobs, conflicts found = true ∧ owned found = true ∧
      db' = db.updateJobs (fun other => other.id = found.id) set ∧ row = set.apply found) ∨
    db.insertJob values = .ok (db', row) := by
  unfold upsertJob at h
  cases hfind : db.jobs.find? conflicts with
  | some found =>
    simp only [hfind] at h
    split_ifs at h with howned
    · cases h
      exact Or.inl ⟨found, List.mem_of_find?_eq_some hfind, List.find?_some hfind, howned, rfl, rfl⟩
    · cases h
  | none =>
    simp only [hfind] at h
    cases hinsert : db.insertJob values with
    | error error => simp [hinsert] at h
    | ok stored =>
      simp only [hinsert, Except.ok.injEq, Prod.mk.injEq, Option.some.injEq] at h
      exact Or.inr (by rw [← h.1, ← h.2])

section JobStatement

variable {db db' : Database} {options : RemediationJobInsertOptions} {now : Timestamp} {row : Job}

theorem sameOwner_jobValues (job : Job) (options : RemediationJobInsertOptions) (now : Timestamp) :
    sameOwner job (options.jobValues now) = true ↔
      job.organizationId = options.organizationId ∧ job.agentId = options.agentId ∧
        job.intentId = options.intentId := by
  simp only [sameOwner, Bool.and_eq_true, decide_eq_true_eq, and_assoc]
  rfl

theorem upsertProjectedJob_ok
    (h : upsertProjectedJob db (options.jobValues now) (truthy options.commandId)
      (truthy options.dedupeKey) = .ok (db', some row)) :
    jobParameterError (options.jobValues now) = none ∧
      ((∃ found ∈ db.jobs, options.names found = true ∧ ∃ set, Freezes set ∧
        db' = db.updateJobs (fun other => other.id = found.id) set ∧ row = set.apply found) ∨
      db.insertJob (options.jobValues now) = .ok (db', row)) := by
  unfold upsertProjectedJob at h
  cases herror : jobParameterError (options.jobValues now) with
  | some error => simp [herror] at h
  | none =>
    refine ⟨rfl, ?_⟩
    simp only [herror] at h
    unfold RemediationJobInsertOptions.names
    cases hcommand : truthy options.commandId <;> cases hdedupe : truthy options.dedupeKey <;>
      simp only [hcommand, hdedupe] at h ⊢
    · right
      cases hinsert : db.insertJob (options.jobValues now) with
      | error error => simp [hinsert] at h
      | ok stored =>
        simp only [hinsert, Except.ok.injEq, Prod.mk.injEq, Option.some.injEq] at h
        rw [← h.1, ← h.2]
    · refine (upsertJob_ok h).imp_left ?_
      rintro ⟨found, hfound, hconflict, howned, heq⟩
      rw [Bool.and_eq_true, sameOwner_jobValues] at howned
      refine ⟨found, hfound, ?_, _, refreshDedupe_freezes _, heq⟩
      simp_all
    · refine (upsertJob_ok h).imp_left ?_
      rintro ⟨found, hfound, hconflict, howned, heq⟩
      rw [sameOwner_jobValues] at howned
      refine ⟨found, hfound, ?_, _, refreshCommand_freezes _, heq⟩
      simp_all
    · refine (upsertJob_ok h).imp_left ?_
      rintro ⟨found, hfound, hconflict, howned, heq⟩
      rw [Bool.and_eq_true, sameOwner_jobValues] at howned
      refine ⟨found, hfound, ?_, _, refreshCommand_freezes _, heq⟩
      simp_all

/-- A payload that names a stored job finds it: the conflict columns are unique. -/
theorem upsertProjectedJob_of_names {job : Job} (hjob : job ∈ db.jobs)
    (hnames : options.names job = true)
    (herror : jobParameterError (options.jobValues now) = none) :
    ∃ set, Freezes set ∧ upsertProjectedJob db (options.jobValues now) (truthy options.commandId)
        (truthy options.dedupeKey) =
      .ok (db.updateJobs (fun other => other.id = job.id) set, some (set.apply job)) := by
  unfold upsertProjectedJob
  simp only [herror]
  unfold RemediationJobInsertOptions.names at hnames
  cases hcommand : truthy options.commandId <;> cases hdedupe : truthy options.dedupeKey <;>
    simp only [hcommand, hdedupe, Bool.and_eq_true, decide_eq_true_eq, Bool.false_eq_true,
      false_and] at hnames
  · obtain ⟨⟨⟨⟨hkey, hnone⟩, horganization⟩, hagent⟩, hintent⟩ := hnames
    refine ⟨_, refreshDedupe_freezes (options.jobValues now), ?_⟩
    have howned := (sameOwner_jobValues job options now).mpr ⟨horganization, hagent, hintent⟩
    simp only [upsertJob, db.jobs_dedupeKey.find?_eq_some hjob hkey, hnone, howned, Bool.and_self,
      if_true]
  · obtain ⟨⟨⟨hkey, horganization⟩, hagent⟩, hintent⟩ := hnames
    refine ⟨_, refreshCommand_freezes (options.jobValues now), ?_⟩
    have howned := (sameOwner_jobValues job options now).mpr ⟨horganization, hagent, hintent⟩
    simp only [upsertJob, db.jobs_commandId.find?_eq_some hjob hkey, howned, if_true]
  · obtain ⟨⟨⟨⟨hkey, hcommandKey⟩, horganization⟩, hagent⟩, hintent⟩ := hnames
    refine ⟨_, refreshCommand_freezes (options.jobValues now), ?_⟩
    have howned := (sameOwner_jobValues job options now).mpr ⟨horganization, hagent, hintent⟩
    simp only [upsertJob, db.jobs_dedupeKey.find?_eq_some hjob hkey, hcommandKey, howned,
      decide_true, Bool.and_self, if_true]

end JobStatement

/-! ## The transaction -/

/-- The device of the payload is in its organization; an empty organization is
not compared. -/
def inScope (db : Database) (options : RemediationJobInsertOptions) : Prop :=
  ∃ device ∈ db.devices, device.agentId = options.agentId ∧
    (options.organizationId = "" ∨ device.organizationId = options.organizationId)

theorem truthy_some_any (text : String) (p : String → Bool) :
    (truthy (some text)).any p = (decide (text ≠ "") && p text) := by
  by_cases h : text = "" <;> simp [truthy, Option.filter, h]

variable {options : RemediationJobInsertOptions}

theorem requireDeviceScope_ok {at_ : Timestamp} {located : Database × Device}
    (h : requireDeviceScope db options.agentId at_ (some options.organizationId) = .ok located) :
    inScope db options ∧ located.1 = db.touchDevice options.agentId at_ := by
  unfold requireDeviceScope at h
  split_ifs at h
  cases hfind : db.devices.find? fun device => device.agentId = options.agentId with
  | none => simp [hfind] at h
  | some device =>
    simp only [hfind, truthy_some_any] at h
    split_ifs at h with hmismatch
    cases h
    have hagent : device.agentId = options.agentId := by simpa using List.find?_some hfind
    refine ⟨⟨device, List.mem_of_find?_eq_some hfind, hagent, ?_⟩, rfl⟩
    simpa [or_iff_not_imp_left] using hmismatch

theorem requireDeviceScope_of_inScope (at_ : Timestamp) (hscope : inScope db options)
    (htext : Json.textStorable options.agentId = true) :
    ∃ device, requireDeviceScope db options.agentId at_ (some options.organizationId) =
      .ok (db.touchDevice options.agentId at_, device) := by
  obtain ⟨device, hdevice, hagent, horganization⟩ := hscope
  have hkey : Device.key device = some options.agentId := by rw [Device.key, hagent]
  have hfind : db.devices.find? (fun other => other.agentId = options.agentId) = some device := by
    simpa [Device.key] using db.devices_key.find?_eq_some hdevice hkey
  have hmatch : ¬ (decide (options.organizationId ≠ "") &&
      decide (device.organizationId ≠ options.organizationId)) = true := by
    simpa [or_iff_not_imp_left] using horganization
  refine ⟨device, ?_⟩
  unfold requireDeviceScope
  simp only [htext, Bool.not_true, Bool.false_eq_true, if_false, hfind, truthy_some_any, hmatch]

/-- A projection that took effect: `row` is the job row that the statement
returned and `middle` the tables before the loop over the steps. -/
structure Projected (db : Database) (projection : Projection) (middle : Database) (row : Job) :
    Prop where
  scope : inScope db projection.options
  parameters : jobParameterError (projection.options.jobValues projection.now) = none
  job : (∃ found ∈ db.jobs, projection.options.names found = true ∧ ∃ set, Freezes set ∧
      middle.jobs = update db.jobs (fun other => other.id = found.id) set.apply ∧
      row = set.apply found) ∨
    (middle.jobs = db.jobs ++ [row] ∧
      row = { projection.options.jobValues projection.now with id := db.nextJobId })
  steps_eq : middle.steps = db.steps
  loop : ∃ n, upsertSteps projection.options.organizationId row.id (!isStarted row.status) middle
    0 0 (asArray projection.options.steps) = .ok (project db projection, n)

/-- Either nothing happens, or the projection takes effect. -/
theorem project_cases (db : Database) (projection : Projection) :
    project db projection = db ∨ ∃ middle row, Projected db projection middle row := by
  cases hproject : insertRemediationJob db projection.at_ projection.now projection.options with
  | error error => exact Or.inl (by simp [project, hproject])
  | ok written =>
    obtain ⟨final, result⟩ := written
    have hfinal : project db projection = final := by simp [project, hproject]
    unfold insertRemediationJob at hproject
    cases hscope : requireDeviceScope db projection.options.agentId projection.at_
        (some projection.options.organizationId) with
    | error failure => cases failure <;> simp [hscope] at hproject
    | ok located =>
      obtain ⟨touched, device⟩ := located
      obtain ⟨hinScope, htouched⟩ := requireDeviceScope_ok hscope
      simp only [hscope] at hproject
      cases hjob : upsertProjectedJob touched (projection.options.jobValues projection.now)
          (truthy projection.options.commandId) (truthy projection.options.dedupeKey) with
      | error error => simp [hjob] at hproject
      | ok upserted =>
        obtain ⟨middle, returned⟩ := upserted
        cases returned with
        | none => simp [hjob] at hproject
        | some row =>
          simp only [hjob] at hproject
          obtain ⟨hparameters, hcases⟩ := upsertProjectedJob_ok hjob
          cases hloop : upsertSteps projection.options.organizationId row.id
              (!isStarted row.status) middle 0 0 (asArray projection.options.steps) with
          | error error => simp [hloop] at hproject
          | ok looped =>
            obtain ⟨stored, inserted⟩ := looped
            simp only [hloop, Except.ok.injEq, Prod.mk.injEq] at hproject
            dsimp only at htouched
            rw [htouched] at hcases
            refine Or.inr ⟨middle, row, hinScope, hparameters, ?_, ?_, inserted, ?_⟩
            · rcases hcases with ⟨found, hfound, hnames, set, hset, rfl, hrow⟩ | hinsert
              · exact Or.inl ⟨found, hfound, hnames, set, hset, rfl, hrow⟩
              · exact Or.inr ⟨(insertJob_ok hinsert).1, (insertJob_ok hinsert).2.1⟩
            · rcases hcases with ⟨found, hfound, hnames, set, hset, rfl, hrow⟩ | hinsert
              · rfl
              · exact (insertJob_ok hinsert).2.2
            · rw [hfinal, ← hproject.1]
              exact hloop

namespace Projected

variable {db middle : Database} {projection : Projection} {row : Job}

variable (h : Projected db projection middle row)
include h

theorem stepParameters :
    ∀ input ∈ stepInputs 0 (asArray projection.options.steps), stepParameterError input = none := by
  obtain ⟨n, hloop⟩ := h.loop
  exact (upsertSteps_ok_iff _ _ _ _ _ _ _).mp ⟨_, hloop⟩

theorem jobs_eq : (project db projection).jobs = middle.jobs := by
  obtain ⟨n, hloop⟩ := h.loop
  exact (upsertSteps_frame hloop).1

theorem rowsOf_eq {jobId : ℕ} (hne : jobId ≠ row.id) :
    rowsOf (project db projection) jobId = rowsOf db jobId := by
  obtain ⟨n, hloop⟩ := h.loop
  rw [(upsertSteps_frame hloop).2 jobId hne, rowsOf, h.steps_eq, rowsOf]

/-- A started job keeps its row. -/
theorem job_mem {job : Job} (hjob : job ∈ db.jobs)
    (hstarted : isStarted job.status = true) : job ∈ (project db projection).jobs := by
  rw [h.jobs_eq]
  rcases h.job with ⟨found, -, -, set, hfreezes, hjobs, -⟩ | ⟨hjobs, -⟩
  · rw [hjobs]
    have hmem := mem_update_of_mem hjob (fun other => other.id = found.id) set.apply
    rwa [hfreezes job hstarted, ite_self] at hmem
  · rw [hjobs]
    exact List.mem_append_left _ hjob

/-- The row that the statement returned is the started job exactly when the
payload names it. -/
theorem row_of_started {job : Job} (hjob : job ∈ db.jobs)
    (hstarted : isStarted job.status = true) (hid : row.id = job.id) :
    row = job ∧ projection.options.names job = true := by
  rcases h.job with ⟨found, hfound, hnames, set, hfreezes, -, hrow⟩ | ⟨-, hrow⟩
  · have hfoundId : found.id = job.id := by rw [← hid, hrow, set.id_eq]
    have heq : found = job := db.job_eq_of_id hfound hjob hfoundId
    subst heq
    exact ⟨hrow.trans (hfreezes found hstarted), hnames⟩
  · have hlt := db.jobs_lt job hjob
    rw [hrow] at hid
    dsimp only at hid
    omega

end Projected

/-- The payload reaches the step statement of the job with an index that has no
row yet. -/
structure Extends (db : Database) (projection : Projection) (job : Job) : Prop where
  names : projection.options.names job = true
  scope : inScope db projection.options
  parameters : jobParameterError (projection.options.jobValues projection.now) = none
  stepParameters : ∀ input ∈ stepInputs 0 (asArray projection.options.steps),
    stepParameterError input = none
  fresh : ∃ input ∈ stepInputs 0 (asArray projection.options.steps),
    ¬ hasRow db job.id input.stepIndex

/-- A payload that extends a started job is projected and adds the missing row. -/
theorem Extends.hasRow_project {projection : Projection} {job : Job} (h : Extends db projection job)
    (hjob : job ∈ db.jobs) (hstarted : isStarted job.status = true) :
    ∀ input ∈ stepInputs 0 (asArray projection.options.steps),
      hasRow (project db projection) job.id input.stepIndex := by
  have htext : Json.textStorable projection.options.agentId = true := by
    have hparameters := h.parameters
    unfold jobParameterError at hparameters
    by_contra hnot
    have hagent :
        Json.textStorable (projection.options.jobValues projection.now).agentId = false := by
      simpa [RemediationJobInsertOptions.jobValues] using hnot
    simp [hagent] at hparameters
  obtain ⟨device, hscope⟩ := requireDeviceScope_of_inScope projection.at_ h.scope htext
  have hjob' : job ∈ (db.touchDevice projection.options.agentId projection.at_).jobs := hjob
  obtain ⟨set, hfreezes, hupsert⟩ := upsertProjectedJob_of_names hjob' h.names h.parameters
  rw [hfreezes job hstarted] at hupsert
  obtain ⟨⟨final, inserted⟩, hloop⟩ :=
    (upsertSteps_ok_iff projection.options.organizationId job.id false
      ((db.touchDevice projection.options.agentId projection.at_).updateJobs
        (fun other => other.id = job.id) set) 0 0 _).mpr h.stepParameters
  have hproject : project db projection = final := by
    simp [project, insertRemediationJob, hscope, hupsert, hstarted, hloop]
  rw [hproject]
  exact (upsertSteps_frozen hloop).2.1

/-- The row and the step rows of a started job survive a projection exactly when
the payload does not extend the job. -/
theorem project_keeps_started_iff (db : Database) (projection : Projection) (job : Job)
    (hjob : job ∈ db.jobs) (hstarted : isStarted job.status = true) :
    (job ∈ (project db projection).jobs ∧
      rowsOf (project db projection) job.id = rowsOf db job.id) ↔
    ¬ Extends db projection job := by
  constructor
  · rintro ⟨-, hrows⟩ hextends
    obtain ⟨input, hinput, hfresh⟩ := hextends.fresh
    obtain ⟨step, hstep, hjobId, hindex⟩ := hextends.hasRow_project hjob hstarted input hinput
    have hmem : step ∈ rowsOf db job.id := by
      rw [← hrows]
      exact List.mem_filter.mpr ⟨hstep, by simpa using hjobId⟩
    exact hfresh ⟨step, (List.mem_filter.mp hmem).1, hjobId, hindex⟩
  · intro hnot
    rcases project_cases db projection with hsame | ⟨middle, row, hprojected⟩
    · rw [hsame]
      exact ⟨hjob, rfl⟩
    refine ⟨hprojected.job_mem hjob hstarted, ?_⟩
    by_cases hid : job.id = row.id
    swap
    · exact hprojected.rowsOf_eq hid
    obtain ⟨rfl, hnames⟩ := hprojected.row_of_started hjob hstarted hid.symm
    have hrows : ∀ input ∈ stepInputs 0 (asArray projection.options.steps),
        hasRow middle row.id input.stepIndex := by
      intro input hinput
      by_contra hfresh
      rw [hasRow, hprojected.steps_eq] at hfresh
      exact hnot ⟨hnames, hprojected.scope, hprojected.parameters, hprojected.stepParameters,
        input, hinput, hfresh⟩
    obtain ⟨n, hloop⟩ := hprojected.loop
    rw [hstarted, Bool.not_true] at hloop
    rw [rowsOf, (upsertSteps_frozen hloop).2.2 hrows, hprojected.steps_eq, rowsOf]

/-- A replay of the claimed command with the given commands as its steps. -/
def replayedCommand (commands : List String) : Projection where
  at_ := 5
  now := 5
  options :=
    { commandId := some "command-7"
      organizationId := "org"
      agentId := "agent"
      decisionId := none
      intentId := "talos.remediation"
      status := some "queued"
      dedupeKey := none
      requestedBy := none
      metadata := none
      steps := some (.arr (commands.map fun command => .obj [("command", .str command)]))
      execution := none }

theorem project_keeps_started_iff_claimedJob :
    (claimedJob ∈ (project claimedDatabase (replayedCommand ["repair", "repair"])).jobs ∧
      rowsOf (project claimedDatabase (replayedCommand ["repair", "repair"])) claimedJob.id =
        rowsOf claimedDatabase claimedJob.id) ↔
    ¬ Extends claimedDatabase (replayedCommand ["repair", "repair"]) claimedJob :=
  project_keeps_started_iff claimedDatabase _ claimedJob (List.mem_singleton.mpr rfl) rfl

/-- A third step in the replay of a running command with two steps is stored. -/
theorem project_extends_running_job :
    claimedJob ∈ claimedDatabase.jobs ∧ claimedJob.status = "running" ∧
    (rowsOf claimedDatabase claimedJob.id).map (fun step => (step.stepIndex, step.command)) =
      [(0, "repair"), (1, "repair")] ∧
    (rowsOf (project claimedDatabase (replayedCommand ["repair", "repair", "wipe"]))
      claimedJob.id).map (fun step => (step.stepIndex, step.command)) =
        [(0, "repair"), (1, "repair"), (2, "wipe")] :=
  ⟨List.mem_singleton.mpr rfl, rfl, by decide, by decide⟩

end Talos.Remediation
