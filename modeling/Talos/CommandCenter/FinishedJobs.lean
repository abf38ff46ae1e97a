import Talos.CommandCenter.Footprint
import Talos.CommandCenter.Service

/-!
# Finished jobs stay finished

A job that has reached a terminal status keeps it, and one that is to be cancelled does not
succeed any more. The `updateMany`s see to it by their conditions. The plain updates do not:
dispatching writes its status after the runner was started, a failed dispatch and the switch
to the desktop write theirs without a look at the row, and the status callback looks at a
row that it read some statements before.
-/

namespace Talos.CommandCenter

open Interactive Program Relational Transition

structure Job.Stays (before after : Job) : Prop where
  finished : isTerminalStatus before.status = true → after.status = before.status
  requested : before.cancelRequestedAt.isSome = true → after.cancelRequestedAt.isSome = true
  cancelled : before.cancelRequestedAt.isSome = true → after.status = .succeeded →
    before.status = .succeeded

/-- The jobs that are finished are as they were, and none has succeeded that was to be
cancelled. -/
def KeepsFinished (earlier later : Service) : Prop :=
  ∀ jobId job, earlier.memory.db.jobs.get? jobId = some job →
    ∃ after, later.memory.db.jobs.get? jobId = some after ∧ job.Stays after

/-- A row of a job that a call has seen: it found the row, or created it. -/
def seenJob : Event Op.Answer → Option Job
  | ⟨.query (.findJob _), .ok (found, _)⟩ => found
  | ⟨.query (.findJobOf ..), .ok (found, _)⟩ => found
  | ⟨.query (.createJob job), .ok _⟩ => some job
  | _ => none

/-- A runner calls back that its job has succeeded. -/
def ApiCall.reportsSuccess (api : Api) : ApiCall → Bool
  | .callback (.status _ input) => normalizeStatus api.js input.status = .succeeded
  | _ => false

/-- The job that an operation updates whatever its row is by then. -/
def Op.updatedJob? : Op → Option String
  | .query (.updateJob jobId _) => some jobId
  | _ => none

/-- When a call updates its job, the job has not finished since the call saw it, and if the
call reports success, nobody has asked to stop the job since. -/
def Undisturbed (api : Api) (p : Service) : ServiceAction → Prop
  | .advance i _ => ∀ task ∈ p.tasks[i]?, ∀ op ∈ task.rest.head?, ∀ jobId ∈ op.updatedJob?,
      ∀ job ∈ p.memory.db.jobs.get? jobId, ∀ seen ∈ task.history.filterMap seenJob,
        (isTerminalStatus job.status = true → isTerminalStatus seen.status = true) ∧
        (task.work.reportsSuccess api = true → job.cancelRequestedAt.isSome = true →
          seen.cancelRequestedAt.isSome = true)
  | .start _ | .internal _ => True

instance (api : Api) (p : Service) : (a : ServiceAction) → Decidable (Undisturbed api p a)
  | .advance i _ => inferInstanceAs (Decidable (∀ task ∈ p.tasks[i]?, _))
  | .start _ | .internal _ => isTrue trivial

theorem Job.stays_refl (job : Job) : job.Stays job := ⟨fun _ => rfl, fun h => h, fun _ h => h⟩

theorem Job.Stays.trans {first second third : Job} (h : first.Stays second)
    (h' : second.Stays third) : first.Stays third where
  finished hfinished := by
    have hsecond := h.finished hfinished
    exact (h'.finished (hsecond ▸ hfinished)).trans hsecond
  requested hrequested := h'.requested (h.requested hrequested)
  cancelled hrequested hsucceeded :=
    h.cancelled hrequested (h'.cancelled (h.requested hrequested) hsucceeded)

theorem KeepsFinished.trans {first second third : Service} (h : KeepsFinished first second)
    (h' : KeepsFinished second third) : KeepsFinished first third := by
  intro jobId job hjob
  obtain ⟨middle, hmiddle, hstays⟩ := h jobId job hjob
  obtain ⟨after, hafter, hstays'⟩ := h' jobId middle hmiddle
  exact ⟨after, hafter, hstays.trans hstays'⟩

theorem not_isTerminalStatus_of_isActive {job : Job} (hactive : job.isActive = true) :
    isTerminalStatus job.status = false := by
  unfold Job.isActive at hactive
  cases hstatus : job.status <;> rw [hstatus] at hactive <;> first | rfl | cases hactive

theorem Job.stays_of_isActive {before after : Job} (hactive : before.isActive = true)
    (hrequested : before.cancelRequestedAt.isSome = true → after.cancelRequestedAt.isSome = true)
    (hne : after.status ≠ .succeeded) : before.Stays after where
  finished hfinished := nomatch (not_isTerminalStatus_of_isActive hactive).symm.trans hfinished
  requested := hrequested
  cancelled _ hsucceeded := absurd hsucceeded hne

/-! ## What the statements keep -/

/-- A status that may be written to the row as it is now. -/
def JobData.InTime (data : JobData) (job : Job) : Prop :=
  ∀ status ∈ data.status, isTerminalStatus job.status = false ∧
    (status = .succeeded → job.cancelRequestedAt = none)

theorem JobData.InTime.stays {data : JobData} {job : Job} (hintime : data.InTime job) :
    job.Stays (data.assignment.apply job) := by
  cases hstatus : data.status with
  | none =>
    have hsame : (data.assignment.apply job).status = job.status := by
      simp [JobData.assignment, hstatus]
    exact ⟨fun _ => hsame, id, fun _ h => hsame ▸ h⟩
  | some status =>
    have hnew : (data.assignment.apply job).status = status := by
      simp [JobData.assignment, hstatus]
    obtain ⟨hopen, hcancel⟩ := hintime status hstatus
    refine ⟨fun hfinished => ?_, id, fun hrequested hsucceeded => ?_⟩
    · rw [hopen] at hfinished
      cases hfinished
    · rw [hcancel (hnew.symm.trans hsucceeded)] at hrequested
      cases hrequested

/-- Of the statements only an update without a condition can change a finished job. -/
theorem stays_onJob {s : Statement} {job : Job}
    (hintime : ∀ data, s = .updateJob job.id data → data.InTime job) : job.Stays (s.onJob job) := by
  cases s with
  | updateJob jobId data =>
    simp only [Statement.onJob]
    split
    next hid => exact (hintime data (by rw [hid])).stays
    next => exact job.stays_refl
  | claimLease | extendLease | clearLease =>
    simp only [Statement.onJob]
    split <;> exact ⟨fun _ => rfl, id, fun _ => id⟩
  | failExpired jobId leaseId now =>
    simp only [Statement.onJob]
    split
    next hmatch =>
      simp only [Job.leaseExpired, Bool.and_eq_true] at hmatch
      exact Job.stays_of_isActive hmatch.2.2.1.1 id (by simp [Job.failExpired])
    next => exact job.stays_refl
  | requestStop jobId organizationId userId now =>
    simp only [Statement.onJob]
    split
    next hmatch =>
      simp only [Bool.and_eq_true] at hmatch
      exact Job.stays_of_isActive hmatch.2.2 (fun _ => rfl) (by simp [Job.requestStop])
    next => exact job.stays_refl
  | finishStop jobId organizationId userId stoppedRemotely =>
    simp only [Statement.onJob]
    split
    next hmatch =>
      simp only [Bool.and_eq_true] at hmatch
      exact Job.stays_of_isActive hmatch.2.2 id (by cases stoppedRemotely <;> simp [Job.setStatus])
    next => exact job.stays_refl
  | _ => exact job.stays_refl

/-! ## What the calls check -/

/-- A call writes a status only if it has seen the job unfinished, and success only if it
reports success and has seen no request to stop. -/
def Checked (api : Api) (work : ApiCall) (h : History) (op : Op) : Prop :=
  ∀ jobId data status, op = .query (.updateJob jobId data) → data.status = some status →
    ∃ seen ∈ h.filterMap seenJob, isTerminalStatus seen.status = false ∧
      (status = .succeeded → work.reportsSuccess api = true ∧ seen.cancelRequestedAt = none)

section Calls

variable {api : Api} {work : ApiCall} {h : History} {α : Type} {p : Handler α}

theorem checked_of_ne {op : Op} (hne : ∀ jobId data, op ≠ .query (.updateJob jobId data)) :
    Checked api work h op := fun jobId data _ hop _ => absurd hop (hne jobId data)

theorem safe_of_no_update {P : Op → Prop} (hp : Within P p)
    (hnot : ∀ jobId data, ¬ P (.query (.updateJob jobId data))) :
    Safe (Checked api work) h p fun _ _ => True := by
  refine hp.safe (fun _ op _ hop => checked_of_ne fun jobId data hupdate => ?_)
    fun _ _ _ _ => trivial
  exact hnot jobId data (hupdate ▸ hop)

/-- After the call has seen the job unfinished it may write anything but success. -/
theorem safe_of_seen {seen : Job} (hseen : seen ∈ h.filterMap seenJob)
    (hopen : isTerminalStatus seen.status = false)
    (hp : Within (fun op => ∀ jobId data, op = .query (.updateJob jobId data) →
      data.status ≠ some .succeeded) p) : Safe (Checked api work) h p fun _ _ => True := by
  refine hp.safe (fun h' op hpre hop jobId data status hupdate hstatus => ?_) fun _ _ _ _ => trivial
  refine ⟨seen, (hpre.filterMap seenJob).subset hseen, hopen, fun hsucceeded => ?_⟩
  exact absurd (hstatus.trans (congrArg some hsucceeded)) (hop jobId data hupdate)

theorem statusUpdate_succeeded {existing : Job} {status : JobStatus} {runnerId : Option String}
    (hsucceeded : (statusUpdate existing status runnerId).status = some .succeeded) :
    status = .succeeded ∧ existing.cancelRequestedAt = none := by
  rw [statusUpdate] at hsucceeded
  split at hsucceeded
  · cases hsucceeded
  next hgoes =>
    cases Option.some.inj hsucceeded
    simpa [isTerminalStatus] using hgoes

/-- The callback has seen the job unfinished, and stops a job that it has seen cancelled. -/
theorem safe_statusCallback (api : Api) (jobId : String) (input : StatusInput) :
    Safe (Checked api (.callback (.status jobId input))) []
      (updateAiRunnerJobStatusFromCallback api jobId input) fun _ _ => True := by
  refine safe_bind_iff.mpr (safe_queryAt.mpr ⟨checked_of_ne (by simp), ?_,
    fun _ => trivial⟩)
  intro found now
  cases found with
  | none => trivial
  | some existing =>
    dsimp only
    cases assertCallbackLease existing now input.toCallbackSource with
    | error e => trivial
    | ok =>
      refine (safe_of_no_update (confined_createAiRunnerEvent (P := releaseFootprint)
        (fun _ _ => trivial) (fun _ => trivial) _ _ _ _) fun _ _ h => h).bind
        (fun h' event hpre _ => ?_) fun _ _ _ _ => trivial
      refine safe_ite.mpr ⟨fun _ => trivial, fun hcreated => ?_⟩
      refine safe_bind_iff.mpr (safe_query.mpr ⟨?_, fun _ _ => trivial, fun _ => trivial⟩)
      rintro _ _ status ⟨⟩ hstatus
      refine ⟨existing, (hpre.filterMap seenJob).subset (by simp [seenJob]), ?_,
        fun hsucceeded => ?_⟩
      · simp only [Bool.or_eq_true, not_or, Bool.not_eq_true] at hcreated
        exact hcreated.2
      · obtain ⟨hreported, hcancel⟩ := statusUpdate_succeeded
          (hstatus.trans (congrArg _ hsucceeded))
        exact ⟨decide_eq_true hreported, hcancel⟩

/-- A job is created unfinished; what follows writes that it runs, waits or has failed. -/
theorem safe_createAiRunnerJob (api : Api) (work : ApiCall) (input : JobInput) :
    Safe (Checked api work) [] (createAiRunnerJob input) fun _ _ => True := by
  refine safe_bind_iff.mpr ⟨checked_of_ne (by simp), fun id => ?_⟩
  refine safe_bind_iff.mpr (safe_query.mpr ⟨checked_of_ne (by simp), fun job now => ?_,
    fun _ => trivial⟩)
  have hdispatched : some input.dispatchedStatus ≠ some .succeeded := by
    rw [JobInput.dispatchedStatus]
    split <;> simp
  refine safe_of_seen (List.mem_filterMap.mpr
    ⟨_, List.mem_append_right _ (List.mem_singleton_self _), rfl⟩) ?_
    (confined_attempt_bind ?_ fun outcome => ?_)
  · simp only [JobInput.initialStatus]
    split <;> rfl
  · refine confined_bind_iff.mpr ⟨by simp, fun attached => confined_ofOutcome_bind fun _ => ?_⟩
    refine confined_query_bind (by rintro _ _ ⟨⟩; simp) fun _ =>
      confined_bind_iff.mpr ⟨by simp, fun response => ?_⟩
    exact confined_ofOutcome_bind fun _ => confined_last_query (by rintro _ _ ⟨⟩; exact hdispatched)
  · cases outcome with
    | ok job => trivial
    | error e =>
      exact confined_attempt_bind (confined_last_query (by rintro _ _ ⟨⟩; simp)) fun _ => trivial

/-- The switch to the desktop has seen the job active. -/
theorem safe_denyAndUseDesktopControl (api : Api) (work : ApiCall) (context : Context)
    (approvalId : String) : Safe (Checked api work) []
      (denyAiRunnerCommandApprovalAndUseDesktopControl context approvalId) fun _ _ => True := by
  refine safe_bind_iff.mpr (safe_query.mpr ⟨checked_of_ne (by simp), fun record _ => ?_,
    fun _ => trivial⟩)
  cases record with
  | none => trivial
  | some record =>
    refine safe_bind_iff.mpr (safe_query.mpr ⟨checked_of_ne (by simp),
      fun sourceJob _ => ?_, fun _ => trivial⟩)
    cases sourceJob with
    | none => trivial
    | some sourceJob =>
      refine safe_ite.mpr ⟨fun hchecked => ?_, fun _ => trivial⟩
      simp only [Bool.and_eq_true] at hchecked
      refine safe_of_seen (List.mem_filterMap.mpr ⟨_, List.mem_append_right _
        (List.mem_singleton_self _), rfl⟩) (not_isTerminalStatus_of_isActive hchecked.1.2) ?_
      refine confined_query_bind (by simp [setApprovalStatus]) fun _ =>
        confined_query_bind (by rintro _ _ ⟨⟩; simp) fun updatedJob => confined_attempt_bind ?_
          fun _ => trivial
      exact confined_createAiRunnerEvent (by simp) (by simp) _ _ _ _

/-- A call that makes no such update has nothing to check. -/
theorem safe_of_quiet {P : Op → Prop} {f : α → Handler Unit} (hp : Within P p)
    (hnot : ∀ jobId data, ¬ P (.query (.updateJob jobId data)))
    (hf : ∀ a, Within (fun op => ∀ s, op ≠ .query s) (f a)) :
    Safe (Checked api work) [] (p >>= f) fun _ _ => True := by
  refine (safe_of_no_update hp hnot).bind (fun _ a _ _ => ?_) fun _ _ _ _ => trivial
  exact safe_of_no_update (hf a) fun _ _ h => h _ rfl

theorem safe_checked (api : Api) (work : ApiCall) :
    Safe (Checked api work) [] (work.program api) fun _ _ => True := by
  cases work with
  | callback request =>
    have hconfined := confined_serve api request
    cases request with
    | status jobId input =>
      refine (safe_statusCallback api jobId input).bind
        (fun _ reply _ _ => ?_) fun _ _ _ _ => trivial
      refine safe_of_no_update (P := fun op => ∀ s, op ≠ .query s) ?_ fun _ _ h => h _ rfl
      exact @within_respond _ (.status jobId input) (fun _ _ h => by cases h) reply
    | _ => exact safe_of_quiet hconfined (fun _ _ h => h) (within_respond fun _ _ h => by cases h)
  | approve context approvalId =>
    exact safe_of_quiet (confined_approveAiRunnerCommandApproval context approvalId)
      (fun _ _ h => h) fun _ => trivial
  | deny context approvalId =>
    exact safe_of_quiet (confined_denyAiRunnerCommandApproval context approvalId) (fun _ _ h => h)
      fun _ => trivial
  | stop context jobId =>
    exact safe_of_quiet (confined_stopAiRunnerJob context jobId) (fun _ _ h => h) fun _ => trivial
  | denyAndUseDesktopControl context approvalId =>
    exact (safe_denyAndUseDesktopControl api _ context approvalId).bind (fun _ _ _ _ => trivial)
      fun _ _ _ _ => trivial
  | createJob input =>
    exact (safe_createAiRunnerJob api _ input).bind (fun _ _ _ _ => trivial) fun _ _ _ _ => trivial
  | reconcile => exact safe_of_no_update confined_reconcile fun _ _ h => h

end Calls

/-! ## Runs -/

theorem keepsFinished_step {api : Api} {p : Service} {a : ServiceAction}
    (hsound : ∀ task ∈ p.tasks, task.Sound (Checked api)) (hundisturbed : Undisturbed api p a) :
    KeepsFinished p ((service api).step p a) := by
  intro jobId job hjob
  rcases (siteStep api p a).db with ⟨hsame, -⟩ | ⟨s, hperformed, hdb⟩
  · exact ⟨job, hsame ▸ hjob, job.stays_refl⟩
  · refine ⟨s.onJob job, by rw [hdb, get?_execute hjob], stays_onJob ?_⟩
    rintro data rfl status hstatus
    obtain ⟨i, outside, task, next, rfl, htask, hrest⟩ := System.exists_of_performed hperformed
    have hid : job.id = jobId := Keyed.key_of_get? hjob
    obtain ⟨seen, hseen, hopen, hsucceeds⟩ :=
      (hsound task (List.mem_of_getElem? htask)).next hrest _ _ status rfl hstatus
    obtain ⟨hfinished, hcancel⟩ := hundisturbed task htask _ (by rw [hrest]; rfl) job.id rfl job
      (hid ▸ hjob) seen hseen
    refine ⟨Bool.eq_false_iff.mpr fun hnow => ?_, fun hsuccess => ?_⟩
    · rw [hfinished hnow] at hopen
      cases hopen
    · obtain ⟨hreports, hnone⟩ := hsucceeds hsuccess
      refine Option.not_isSome_iff_eq_none.mp fun hsome => ?_
      rw [hnone] at hcancel
      cases hcancel hreports hsome

/-- From a state in which no call is under way: between any two moments of a run whose
updates are undisturbed the finished jobs stay finished. -/
theorem finished_jobs_stay (api : Api) (site : Site) (as : List ServiceAction)
    (hundisturbed : along (service api).step (Undisturbed api) ⟨site, []⟩ as)
    (earlier later rest : List ServiceAction) (has : as = earlier ++ later ++ rest) :
    KeepsFinished (run (service api).step ⟨site, []⟩ earlier)
      (run (service api).step ⟨site, []⟩ (earlier ++ later)) := by
  subst has
  rw [along_append, along_append] at hundisturbed
  have hsound : ∀ (p : Service) (a : ServiceAction), (∀ task ∈ p.tasks, task.Sound (Checked api)) →
      ∀ task ∈ ((service api).step p a).tasks, task.Sound (Checked api) :=
    fun p a hp => System.sound_step (safe_checked api) hp a
  rw [run_append]
  refine run_relation_along (fun p jobId job hjob => ⟨job, hjob, job.stays_refl⟩)
    (fun _ _ _ => KeepsFinished.trans) (fun p a hp ha => ⟨hsound p a hp, keepsFinished_step hp ha⟩)
    (run_invariant hsound (fun _ h => by cases h) earlier) hundisturbed.1.2

def runFromStart (as : List ServiceAction) : Service :=
  run (service bareApi).step (Service.start 0) as

/-- A job is created, and after some steps its runner begins to report success. -/
def reportedAfter (steps : ℕ) : List ServiceAction :=
  [.start (.createJob ⟨"org", "user", none, shellJobType, true⟩)] ++ advances 0 steps 0 ++
    [.start (.callback (.status "approval"
      { runnerId := none, leaseId := none, eventKey := none, status := some "succeeded" }))]

/-- The runner reports its success when the job has been dispatched, and the user stops the
job afterwards. -/
def reportedInTurn : List ServiceAction := reportedAfter 6 ++ advances 1 5 1

def stoppedInTurn : List ServiceAction :=
  [.start (.stop ⟨"org", "user"⟩ "approval")] ++ advances 2 3 2

theorem finished_jobs_stay_reportedInTurn :
    along (service bareApi).step (Undisturbed bareApi) (Service.start 0)
        (reportedInTurn ++ stoppedInTurn) ∧
      ((runFromStart reportedInTurn).memory.db.jobs.get? "approval").map Job.status =
        some .succeeded ∧
      KeepsFinished (runFromStart reportedInTurn)
        (runFromStart (reportedInTurn ++ stoppedInTurn)) := by
  have hundisturbed : along (service bareApi).step (Undisturbed bareApi) (Service.start 0)
      (reportedInTurn ++ stoppedInTurn) := by decide +kernel
  refine ⟨hundisturbed, by decide +kernel, ?_⟩
  exact finished_jobs_stay bareApi _ _ hundisturbed reportedInTurn stoppedInTurn []
    (List.append_nil _).symm

/-! ## Late updates -/

/-- The runner reports its success before the dispatcher has written that it runs. -/
def reportedBeforeDispatched : List ServiceAction := reportedAfter 5 ++ advances 1 5 1

def stoppedBeforeUpdated : List ServiceAction :=
  reportedAfter 6 ++ advances 1 3 1 ++ [.start (.stop ⟨"org", "user"⟩ "approval")] ++ advances 2 2 2

theorem not_keepsFinished_late : ¬ KeepsFinished (runFromStart reportedBeforeDispatched)
        (runFromStart (reportedBeforeDispatched ++ advances 0 1 2)) ∧
      ¬ KeepsFinished (runFromStart stoppedBeforeUpdated)
        (runFromStart (stoppedBeforeUpdated ++ advances 1 1 2)) := by
  -- the status and the request, before and after the late update
  have hreported : ((runFromStart reportedBeforeDispatched).memory.db.jobs.get? "approval").map
      Job.status = some .succeeded := by decide +kernel
  have hrunning : ((runFromStart (reportedBeforeDispatched ++ advances 0 1 2)).memory.db.jobs.get?
      "approval").map Job.status = some .running := by decide +kernel
  have hstopping : ((runFromStart stoppedBeforeUpdated).memory.db.jobs.get? "approval").map
      (fun job => (job.status, job.cancelRequestedAt)) = some (.stopping, some 2) := by
    decide +kernel
  have hsucceeded : ((runFromStart (stoppedBeforeUpdated ++ advances 1 1 2)).memory.db.jobs.get?
      "approval").map Job.status = some .succeeded := by decide +kernel
  constructor
  · intro hkeeps
    obtain ⟨job, hjob, hstatus⟩ := Option.map_eq_some_iff.mp hreported
    obtain ⟨after, hafter, hstays⟩ := hkeeps "approval" job hjob
    rw [hafter, Option.map_some, hstays.finished (by rw [hstatus]; rfl), hstatus] at hrunning
    cases hrunning
  · intro hkeeps
    obtain ⟨job, hjob, hbefore⟩ := Option.map_eq_some_iff.mp hstopping
    obtain ⟨after, hafter, hstays⟩ := hkeeps "approval" job hjob
    obtain ⟨hstatus, hcancel⟩ := Prod.mk.inj hbefore
    rw [hafter, Option.map_some] at hsucceeded
    have hsame := hstays.cancelled (by rw [hcancel]; rfl) (Option.some.inj hsucceeded)
    exact nomatch hstatus.symm.trans hsame

end Talos.CommandCenter
