import Talos.CommandCenter.Approvals
import Talos.Interactive.Pool

/-!
# Calls that are served at the same time

The API serves any number of calls at once: every statement is atomic, and between two
statements of a call any others can come. The clock does not go back.

What a statement does to the row of a job is said once, by `Statement.onJob`.
-/

namespace Talos.CommandCenter

open Interactive Relational

structure Site where
  db : Database
  clock : Timestamp

def Site.tick (site : Site) (outside : Outside) : Outside :=
  { outside with now := max site.clock outside.now }

def Site.perform (outside : Outside) (site : Site) (op : Op) : op.Answer × Site :=
  let result := site.db.perform (site.tick outside) op
  (result.1, ⟨result.2, (site.tick outside).now⟩)

def service (api : Api) : System Site ApiCall Outside Empty Op.Answer Failure Unit where
  program := ApiCall.program api
  perform := Site.perform
  internal change := change.elim

abbrev Service := Pool Site ApiCall Op.Answer Failure Unit

abbrev ServiceAction := Action ApiCall Outside Empty

def advances (i n : ℕ) (now : Timestamp) : List ServiceAction :=
  List.replicate n (.advance i (.plain now))

def Service.start (clock : Timestamp) : Service := ⟨⟨Database.empty, clock⟩, []⟩

theorem Site.clock_le_tick (site : Site) (outside : Outside) :
    site.clock ≤ (site.tick outside).now := le_max_left _ _

/-! ## Steps -/

def time? : Event Op.Answer → Option Timestamp
  | ⟨.query _, .ok (_, t)⟩ => some t
  | ⟨.clock, t⟩ => some t
  | _ => none

/-- A step makes one statement on the tables, or leaves them alone. -/
structure SiteStep (site : Site) (performed : Option (Event Op.Answer)) (site' : Site) : Prop where
  clock : site.clock ≤ site'.clock
  time : ∀ event t, performed = some event → time? event = some t → t = site'.clock
  db : (site'.db = site.db ∧ ∀ s value, performed ≠ some ⟨.query s, .ok value⟩) ∨
    ∃ s, performed = some ⟨.query s, (site.db.execute s).1.map fun value => (value, site'.clock)⟩ ∧
      site'.db = (site.db.execute s).2

theorem siteStep_perform (outside : Outside) (site : Site) (op : Op) :
    SiteStep site (some ⟨op, (site.perform outside op).1⟩) (site.perform outside op).2 := by
  refine ⟨site.clock_le_tick outside, fun event t hevent htime => ?_, ?_⟩
  · cases hevent
    cases op with
    | query s =>
      simp only [Site.perform, Database.perform] at htime
      cases hfault : (site.tick outside).fault with
      | some e =>
        rw [hfault] at htime
        cases htime
      | none =>
        cases hresult : (site.db.execute s).1 <;> rw [hfault, hresult] at htime <;> cases htime
        rfl
    | clock =>
      cases htime
      rfl
    | _ => cases htime
  · cases op with
    | query s =>
      simp only [Site.perform, Database.perform]
      cases (site.tick outside).fault with
      | some e => exact .inl ⟨rfl, fun _ _ h => nomatch h⟩
      | none => exact .inr ⟨s, rfl, rfl⟩
    | _ => exact .inl ⟨rfl, fun _ _ h => nomatch h⟩

theorem siteStep (api : Api) (p : Service) (a : ServiceAction) :
    SiteStep p.memory ((service api).performed p a) ((service api).step p a).memory :=
  System.memory_step (R := SiteStep)
    (fun _ => ⟨le_rfl, fun _ _ h => (nomatch h), .inl ⟨rfl, fun _ _ h => nomatch h⟩⟩)
    siteStep_perform (fun change => change.elim) p a

theorem executed_of_performed {api : Api} {p : Service} {a : ServiceAction} {s : Statement}
    {value : s.Result} {t : Timestamp}
    (hperformed : (service api).performed p a = some ⟨.query s, .ok (value, t)⟩) :
    (p.memory.db.execute s).1 = .ok value ∧
      ((service api).step p a).memory.db = (p.memory.db.execute s).2 := by
  rcases (siteStep api p a).db with ⟨_, hnot⟩ | ⟨s', hsome, hdb⟩
  · exact absurd hperformed (hnot s _)
  · have hevent := Option.some.inj (hperformed.symm.trans hsome)
    cases congrArg Event.op hevent
    have hanswer := eq_of_heq (Event.mk.inj hevent).2
    refine ⟨?_, hdb⟩
    cases hresult : (p.memory.db.execute s).1 with
    | error e =>
      rw [hresult] at hanswer
      cases hanswer
    | ok found =>
      rw [hresult] at hanswer
      cases hanswer
      rfl

/-! ## Rows of jobs -/

/-- What a statement does to a job that is there. -/
def Statement.onJob : Statement → Job → Job
  | .updateJob jobId data, job => if job.id = jobId then data.assignment.apply job else job
  | .claimLease jobId leaseId runnerId now leaseExpiresAt, job =>
    if job.id = jobId && job.leaseClaimable now then
      (Job.claimLease leaseId runnerId leaseExpiresAt).apply job
    else job
  | .extendLease jobId leaseId runnerId now leaseExpiresAt, job =>
    if job.id = jobId && job.leaseExtendable leaseId runnerId now then
      (Job.extendLease leaseExpiresAt).apply job
    else job
  | .clearLease jobId leaseId runnerId, job =>
    if job.id = jobId && job.holdsLease leaseId runnerId then Job.clearLease.apply job else job
  | .failExpired jobId leaseId now, job =>
    if job.id = jobId && (job.leaseId = some leaseId && job.leaseExpired now) then
      Job.failExpired.apply job
    else job
  | .requestStop jobId organizationId userId now, job =>
    if job.id = jobId && (job.isOf organizationId userId && job.isActive) then
      (Job.requestStop now).apply job
    else job
  | .finishStop jobId organizationId userId stoppedRemotely, job =>
    if job.id = jobId && (job.isOf organizationId userId && job.isActive) then
      (Job.setStatus (if stoppedRemotely then .stopped else .stopping)).apply job
    else job
  | _, job => job

theorem jobs_execute (db : Database) (s : Statement) :
    (∀ k, (db.execute s).2.jobs.get? k = (db.jobs.get? k).map s.onJob) ∨
      ∃ new, s = .createJob new ∧ db.jobs.insertAll [new] = some (db.execute s).2.jobs := by
  have hsame : s.onJob = id → (db.execute s).2.jobs = db.jobs →
      ∀ k, (db.execute s).2.jobs.get? k = (db.jobs.get? k).map s.onJob := by
    intro hid hjobs k
    rw [hid, hjobs, Option.map_id, id]
  cases s with
  | createJob new =>
    cases hinsert : db.jobs.insertAll [new] with
    | none => exact .inl (hsame rfl (by simp only [Database.execute, hinsert]))
    | some jobs => exact .inr ⟨new, rfl, by simp only [Database.execute, hinsert]⟩
  | updateJob jobId data =>
    refine .inl fun k => ?_
    simp only [Database.execute]
    cases hget : db.jobs.get? jobId with
    | none =>
      cases hjob : db.jobs.get? k with
      | none => rfl
      | some job =>
        have hne : job.id ≠ jobId := by
          rintro rfl
          rw [Keyed.key_of_get? hjob, hjob] at hget
          cases hget
        rw [Option.map_some, Statement.onJob, if_neg hne]
    | some stored =>
      rw [Keyed.get?_update]
      congr 1
      funext job
      simp [Statement.onJob]
  | createEvent | linkEvent | updateApproval =>
    refine .inl (hsame rfl ?_)
    simp only [Database.execute]
    split <;> rfl
  | createApproval approval =>
    refine .inl (hsame rfl ?_)
    simp only [Database.execute]
    split
    · rfl
    · split <;> rfl
  | claimLease | extendLease | clearLease | failExpired | requestStop | finishStop =>
    exact .inl fun k => Keyed.get?_update ..
  | _ => exact .inl (hsame rfl rfl)

variable {db : Database} {job : Job}

theorem get?_execute {k : String} (hjob : db.jobs.get? k = some job) (s : Statement) :
    (db.execute s).2.jobs.get? k = some (s.onJob job) := by
  rcases jobs_execute db s with hrows | ⟨new, rfl, hinsert⟩
  · rw [hrows, hjob, Option.map_some]
  · rw [Keyed.get?_insertAll hinsert, hjob, Option.some_or]
    rfl

theorem eq_createJob_of_get?_execute {k : String} {s : Statement} (hnone : db.jobs.get? k = none)
    (hjob : (db.execute s).2.jobs.get? k = some job) : s = .createJob job := by
  rcases jobs_execute db s with hrows | ⟨new, rfl, hinsert⟩
  · rw [hrows, hnone] at hjob
    cases hjob
  · rw [Keyed.get?_insertAll hinsert, hnone, Option.none_or] at hjob
    split at hjob <;> cases hjob
    rfl

/-- What happens to the lease of a job that is there. -/
theorem onJob_lease_cases (s : Statement) (job : Job) : ((s.onJob job).leaseId = job.leaseId ∧
      (s.onJob job).leaseOwnerRunnerId = job.leaseOwnerRunnerId ∧
      (s.onJob job).leaseExpiresAt = job.leaseExpiresAt) ∨
    (∃ leaseId runnerId now expiresAt, s = .claimLease job.id leaseId runnerId now expiresAt ∧
      job.leaseClaimable now = true ∧
      s.onJob job = (Job.claimLease leaseId runnerId expiresAt).apply job) ∨
    (∃ leaseId runnerId now expiresAt, s = .extendLease job.id leaseId runnerId now expiresAt ∧
      job.leaseExtendable leaseId runnerId now = true ∧
      s.onJob job = (Job.extendLease expiresAt).apply job) ∨
    (∃ leaseId runnerId, s = .clearLease job.id leaseId runnerId ∧
      job.holdsLease leaseId runnerId = true ∧ s.onJob job = Job.clearLease.apply job) ∨
    ∃ leaseId now, s = .failExpired job.id leaseId now ∧ job.leaseId = some leaseId ∧
      job.leaseExpired now = true ∧ s.onJob job = Job.failExpired.apply job := by
  cases s with
  | claimLease jobId leaseId runnerId now expiresAt =>
    simp only [Statement.onJob]
    split
    next hmatch =>
      obtain ⟨rfl, hclaimable⟩ : job.id = jobId ∧ _ := by simpa using hmatch
      exact .inr (.inl ⟨leaseId, runnerId, now, expiresAt, rfl, hclaimable, rfl⟩)
    next => exact .inl ⟨rfl, rfl, rfl⟩
  | extendLease jobId leaseId runnerId now expiresAt =>
    simp only [Statement.onJob]
    split
    next hmatch =>
      obtain ⟨rfl, hextendable⟩ : job.id = jobId ∧ _ := by simpa using hmatch
      exact .inr (.inr (.inl ⟨leaseId, runnerId, now, expiresAt, rfl, hextendable, rfl⟩))
    next => exact .inl ⟨rfl, rfl, rfl⟩
  | clearLease jobId leaseId runnerId =>
    simp only [Statement.onJob]
    split
    next hmatch =>
      obtain ⟨rfl, hholds⟩ : job.id = jobId ∧ _ := by simpa using hmatch
      exact .inr (.inr (.inr (.inl ⟨leaseId, runnerId, rfl, hholds, rfl⟩)))
    next => exact .inl ⟨rfl, rfl, rfl⟩
  | failExpired jobId leaseId now =>
    simp only [Statement.onJob]
    split
    next hmatch =>
      obtain ⟨rfl, hlease, hexpired⟩ : job.id = jobId ∧ job.leaseId = some leaseId ∧ _ := by
        simpa using hmatch
      exact .inr (.inr (.inr (.inr ⟨leaseId, now, rfl, hlease, hexpired, rfl⟩)))
    next => exact .inl ⟨rfl, rfl, rfl⟩
  | updateJob | requestStop | finishStop =>
    simp only [Statement.onJob]
    split <;> exact .inl ⟨rfl, rfl, rfl⟩
  | _ => exact .inl ⟨rfl, rfl, rfl⟩

variable {condition : Job → Bool}

theorem exists_of_updateJobs {jobId : String} {set : Assignment Job.id}
    (hcount : (db.updateJobs jobId condition set).1 ≠ 0) :
    ∃ job, db.jobs.get? jobId = some job ∧ condition job = true := by
  obtain ⟨job, hmem, hmatch⟩ := List.countP_pos_iff.mp (Nat.pos_of_ne_zero hcount)
  simp only [Bool.and_eq_true, decide_eq_true_eq] at hmatch
  exact ⟨job, hmatch.1 ▸ Keyed.get?_of_mem hmem, hmatch.2⟩

theorem updateJobs_ne_zero {jobId : String} (hjob : db.jobs.get? jobId = some job)
    (hcondition : condition job = true) (set : Assignment Job.id) :
    (db.updateJobs jobId condition set).1 ≠ 0 := by
  refine Nat.pos_iff_ne_zero.mp (List.countP_pos_iff.mpr ⟨job, Keyed.mem_of_get? hjob, ?_⟩)
  simp [Keyed.key_of_get? hjob, hcondition]

end Talos.CommandCenter
