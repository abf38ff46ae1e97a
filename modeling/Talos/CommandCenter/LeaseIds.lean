import Talos.CommandCenter.LeasePromises
import Talos.CommandCenter.Service

/-!
# Every lease has its own id

The id of a lease is generated for the request that claims it, so if the ids are fresh
then a lease belongs to one job and one runner for ever. Once it is not in the row of the
job any more it does not come back, and no heartbeat extends it.
-/

namespace Talos.CommandCenter

open Interactive Program Relational

instance : DecidableEq Uuid := fun id id' =>
  decidable_of_iff (id.text = id'.text) (by cases id; cases id'; simp)

def uuid? : Event Op.Answer → Option Uuid
  | ⟨.uuid, id⟩ => some id
  | _ => none

def Claimed (p : Service) (jobId leaseId runnerId : String) : Prop :=
  ∃ now expiresAt n t, n ≠ 0 ∧ System.Happened p
    ⟨.query (.claimLease jobId leaseId runnerId now expiresAt), .ok (n, t)⟩

structure LeaseIds (api : Api) (p : Service) : Prop where
  sound : ∀ task ∈ p.tasks, task.Sound (leaseRule api)
  distinct : System.Distinct uuid? p
  stored : ∀ jobId job leaseId, p.memory.db.jobs.get? jobId = some job →
    job.leaseId = some leaseId →
    ∃ runnerId, job.leaseOwnerRunnerId = some runnerId ∧ Claimed p jobId leaseId runnerId
  made : ∀ event promise, System.Happened p event → promise? event = some promise →
    Claimed p promise.jobId promise.leaseId promise.runnerId

def Retired (p : Service) (jobId leaseId : String) : Prop :=
  (∃ runnerId, Claimed p jobId leaseId runnerId) ∧
    ∀ job, p.memory.db.jobs.get? jobId = some job → job.leaseId ≠ some leaseId

/-! ## One claim for each id -/

theorem claim_unique {api : Api} {call : ApiCall} {h : History}
    (hpast : Obeys (leaseRule api call) h) {event other : Event Op.Answer} (hevent : event ∈ h)
    (hother : other ∈ h) (hclaim : isClaim event = true) (hclaim' : isClaim other = true) :
    event = other := by
  refine Throughout.unique (fun before event after hsplit hclaim => ?_) hevent hother hclaim hclaim'
  have hrule := hpast before event after hsplit
  unfold isClaim at hclaim
  split at hclaim
  · exact hrule.2.2
  · cases hclaim

section Ids

variable {api : Api} {p : Service} {a : ServiceAction} {jobId leaseId runnerId : String}

theorem Claimed.step (h : Claimed p jobId leaseId runnerId) (api : Api) (a : ServiceAction) :
    Claimed ((service api).step p a) jobId leaseId runnerId := by
  obtain ⟨now, expiresAt, n, t, hn, hhappened⟩ := h
  exact ⟨now, expiresAt, n, t, hn, hhappened.step (service api) a⟩

variable {task : Task ApiCall Op.Answer Failure Unit} {event : Event Op.Answer} {job : Job}
  {promise : Promise} {expiresAt : Timestamp} {jobId' runnerId' : String}

theorem mem_keys_uuid? {id : Uuid} :
    id ∈ task.keys uuid? ↔ (⟨.uuid, id⟩ : Event Op.Answer) ∈ task.history := by
  rw [Task.keys, List.mem_filterMap]
  constructor
  · rintro ⟨event, hevent, hid⟩
    unfold uuid? at hid
    split at hid
    · cases hid
      exact hevent
    · cases hid
  · exact fun hmem => ⟨_, hmem, rfl⟩

theorem Job.promise?_eq_some (hpromise : job.promise? jobId = some promise) :
    promise.jobId = jobId ∧ job.leaseOwnerRunnerId = some promise.runnerId ∧
      job.leaseId = some promise.leaseId ∧ job.leaseExpiresAt = some promise.expiresAt := by
  unfold Job.promise? at hpromise
  split at hpromise
  next howner hlease hexpires =>
    cases hpromise
    exact ⟨rfl, howner, hlease, hexpires⟩
  next => cases hpromise

theorem promised_performed (hperformed : (service api).performed p a = some event)
    (hpromise : promise? event = some promise) :
    ∃ job, ((service api).step p a).memory.db.jobs.get? promise.jobId = some job ∧
      job.leaseOwnerRunnerId = some promise.runnerId ∧ job.leaseId = some promise.leaseId ∧
      job.leaseExpiresAt = some promise.expiresAt := by
  unfold promise? at hpromise
  split at hpromise
  next jobId job t =>
    obtain ⟨hanswer, hdb⟩ := executed_of_performed hperformed
    obtain ⟨rfl, hlease⟩ := Job.promise?_eq_some hpromise
    exact ⟨job, by rw [hdb]; exact Except.ok.inj hanswer, hlease⟩
  next jobId leaseId runnerId now expiresAt t =>
    obtain ⟨hanswer, hdb⟩ := executed_of_performed hperformed
    cases hpromise
    obtain ⟨job, hjob, hclaimable⟩ := exists_of_updateJobs
      (show _ ≠ 0 from (Except.ok.inj hanswer).symm ▸ one_ne_zero)
    refine ⟨_, by rw [hdb]; exact get?_execute hjob _, ?_⟩
    simp [Statement.onJob, Keyed.key_of_get? hjob, hclaimable, Job.claimLease]
  next jobId leaseId runnerId now expiresAt t =>
    obtain ⟨hanswer, hdb⟩ := executed_of_performed hperformed
    cases hpromise
    obtain ⟨job, hjob, hextendable⟩ := exists_of_updateJobs
      (show _ ≠ 0 from (Except.ok.inj hanswer).symm ▸ one_ne_zero)
    refine ⟨_, by rw [hdb]; exact get?_execute hjob _, ?_⟩
    have hholds := hextendable
    simp only [Job.leaseExtendable, Job.holdsLease, Bool.and_eq_true, decide_eq_true_eq] at hholds
    simp [Statement.onJob, Keyed.key_of_get? hjob, hextendable, Job.extendLease, hholds]
  next => cases hpromise

theorem leaseIds_start (api : Api) (clock : Timestamp) : LeaseIds api (Service.start clock) where
  sound _ hmem := nomatch hmem
  distinct _ _ _ _ _ htask := nomatch htask
  stored _ _ _ hjob := nomatch hjob
  made _ _ hhappened := by
    obtain ⟨_, hmem, _⟩ := hhappened
    cases hmem

theorem Retired.not_extended {now t : Timestamp} (hretired : Retired p jobId leaseId) (api : Api)
    (a : ServiceAction) : (service api).performed p a ≠
      some ⟨.query (.extendLease jobId leaseId runnerId now expiresAt), .ok (1, t)⟩ := by
  intro hperformed
  obtain ⟨hanswer, _⟩ := executed_of_performed hperformed
  obtain ⟨job, hjob, hextendable⟩ := exists_of_updateJobs
    (show _ ≠ 0 from (Except.ok.inj hanswer).symm ▸ one_ne_zero)
  simp only [Job.leaseExtendable, Job.holdsLease, Bool.and_eq_true, decide_eq_true_eq]
    at hextendable
  exact hretired.2 job hjob (by simp [hextendable])

/-- The `i`-th task has not extended the lease. -/
def NotExtended (i : ℕ) (p : Service) (jobId leaseId : String) : Prop :=
  ∀ task, p.tasks[i]? = some task → ∀ runnerId now expiresAt t,
    (⟨.query (.extendLease jobId leaseId runnerId now expiresAt), .ok (1, t)⟩ :
      Event Op.Answer) ∉ task.history

theorem NotExtended.step {i : ℕ} (hretired : Retired p jobId leaseId)
    (hnot : NotExtended i p jobId leaseId) :
    NotExtended i ((service api).step p a) jobId leaseId := by
  intro task htask runnerId now expiresAt t hmem
  cases System.origin htask with
  | kept hold => exact hnot task hold _ _ _ _ hmem
  | begun work => cases hmem
  | answered hold hrest =>
    rcases List.mem_append.mp hmem with hmem | hmem
    · exact hnot _ hold _ _ _ _ hmem
    · exact hretired.not_extended api _ ((System.performed_advance hold hrest).trans
        (congrArg some (List.mem_singleton.mp hmem).symm))

variable (hids : LeaseIds api p)
include hids

theorem LeaseIds.rule (hperformed : (service api).performed p a = some event) :
    ∃ task ∈ p.tasks, leaseRule api task.work task.history event.op := by
  obtain ⟨_, _, task, next, _, htask, hrest⟩ := System.exists_of_performed hperformed
  have hmem := List.mem_of_getElem? htask
  exact ⟨task, hmem, (hids.sound task hmem).next hrest⟩

theorem LeaseIds.generated (hclaimed : Claimed p jobId leaseId runnerId) :
    ∃ task ∈ p.tasks, ∃ event ∈ task.history, isClaim event = true ∧
      (∃ now expiresAt answer, event =
        ⟨.query (.claimLease jobId leaseId runnerId now expiresAt), answer⟩) ∧
      ∃ id ∈ task.keys uuid?, id.text = leaseId := by
  obtain ⟨now, expiresAt, n, t, _, task, hmem, hevent⟩ := hclaimed
  obtain ⟨before, after, hsplit⟩ := List.append_of_mem hevent
  obtain ⟨_, ⟨id, hid, hleaseId⟩, _⟩ := (hids.sound task hmem).past before _ after hsplit
  refine ⟨task, hmem, _, hevent, rfl, ⟨now, expiresAt, _, rfl⟩, id, ?_, hleaseId⟩
  exact mem_keys_uuid?.mpr (hsplit ▸ List.mem_append_left _ hid)

theorem Claimed.clean (hclaimed : Claimed p jobId leaseId runnerId) :
    stringValue (some leaseId) = some leaseId := by
  obtain ⟨_, _, _, _, _, _, id, _, rfl⟩ := hids.generated hclaimed
  exact id.clean

/-- Generated ids that are the same were generated by the same task. -/
theorem LeaseIds.same_task {other : Task ApiCall Op.Answer Failure Unit} {id id' : Uuid}
    (htask : task ∈ p.tasks) (hother : other ∈ p.tasks)
    (hid : id ∈ task.keys uuid?) (hid' : id' ∈ other.keys uuid?) (htext : id.text = id'.text) :
    task = other := by
  obtain ⟨i, htask⟩ := List.mem_iff_getElem?.mp htask
  obtain ⟨j, hother⟩ := List.mem_iff_getElem?.mp hother
  have hsame : id = id' := by
    cases id
    cases id'
    cases htext
    rfl
  cases hids.distinct i j task other id htask hother hid (hsame ▸ hid')
  exact Option.some.inj (htask.symm.trans hother)

theorem Claimed.unique (hclaimed : Claimed p jobId leaseId runnerId)
    (hclaimed' : Claimed p jobId' leaseId runnerId') : jobId = jobId' ∧ runnerId = runnerId' := by
  obtain ⟨task, htask, event, hevent, hclaim, ⟨_, _, _, rfl⟩, id, hid, htext⟩ :=
    hids.generated hclaimed
  obtain ⟨other, hother, event', hevent', hclaim', ⟨_, _, _, rfl⟩, id', hid', htext'⟩ :=
    hids.generated hclaimed'
  cases hids.same_task htask hother hid hid' (htext.trans htext'.symm)
  cases claim_unique (hids.sound task htask).past hevent hevent' hclaim hclaim'
  exact ⟨rfl, rfl⟩

/-- The lease of a claim that is about to be made is new. -/
theorem LeaseIds.not_claimed {now : Timestamp} {answer} (hperformed : (service api).performed p a =
      some ⟨.query (.claimLease jobId leaseId runnerId now expiresAt), answer⟩) :
    ¬ Claimed p jobId' leaseId runnerId' := by
  intro hclaimed
  obtain ⟨task, htask, _, ⟨id, hid, htext⟩, hnone⟩ := hids.rule hperformed
  obtain ⟨other, hother, event, hevent, hclaim, _, id', hid', htext'⟩ := hids.generated hclaimed
  cases hids.same_task htask hother (mem_keys_uuid?.mpr hid) hid' (htext.trans htext'.symm)
  exact absurd hclaim (by simp [hnone event hevent])

/-! ## Steps -/

theorem lease_step_cases (hjob : ((service api).step p a).memory.db.jobs.get? jobId = some job)
    (hlease : job.leaseId = some leaseId) :
    (∃ old, p.memory.db.jobs.get? jobId = some old ∧ old.leaseId = some leaseId ∧
      job.leaseOwnerRunnerId = old.leaseOwnerRunnerId) ∨
    ∃ runnerId, job.leaseOwnerRunnerId = some runnerId ∧
      Claimed ((service api).step p a) jobId leaseId runnerId ∧
      ∀ jobId' runnerId', ¬ Claimed p jobId' leaseId runnerId' := by
  rcases (siteStep api p a).db with ⟨hsame, _⟩ | ⟨s, hperformed, hdb⟩
  · exact .inl ⟨job, hsame ▸ hjob, hlease, rfl⟩
  · rw [hdb] at hjob
    cases hold : p.memory.db.jobs.get? jobId with
    | none =>
      cases eq_createJob_of_get?_execute hold hjob
      obtain ⟨_, _, hrule⟩ := hids.rule hperformed
      exact nomatch (show job.leaseId = none from hrule).symm.trans hlease
    | some old =>
      cases (get?_execute hold s).symm.trans hjob
      rcases onJob_lease_cases s old with ⟨hsame, howner, _⟩ |
        ⟨claimed, runnerId, now, until', rfl, hclaimable, hrow⟩ |
        ⟨_, _, _, _, rfl, _, hrow⟩ | ⟨_, _, rfl, _, hrow⟩ | ⟨_, _, rfl, _, _, hrow⟩
      · exact .inl ⟨old, rfl, hsame ▸ hlease, howner⟩
      · rw [hrow] at hlease ⊢
        cases hlease
        have hid : old.id = jobId := Keyed.key_of_get? hold
        have hcount := updateJobs_ne_zero (hid ▸ hold) hclaimable
          (Job.claimLease leaseId runnerId until')
        refine .inr ⟨runnerId, rfl, ?_, fun _ _ => hids.not_claimed hperformed⟩
        rw [hid] at hcount hperformed
        exact ⟨now, until', _, _, hcount, System.happened_of_performed hperformed⟩
      · rw [hrow] at hlease ⊢
        exact .inl ⟨old, rfl, hlease, rfl⟩
      · rw [hrow] at hlease
        cases hlease
      · rw [hrow] at hlease
        cases hlease

theorem LeaseIds.step (hfresh : (service api).Fresh uuid? p a) :
    LeaseIds api ((service api).step p a) := by
  have hstored : ∀ jobId job leaseId,
      ((service api).step p a).memory.db.jobs.get? jobId = some job → job.leaseId = some leaseId →
      ∃ runnerId, job.leaseOwnerRunnerId = some runnerId ∧
        Claimed ((service api).step p a) jobId leaseId runnerId := by
    intro jobId job leaseId hjob hlease
    rcases lease_step_cases hids hjob hlease with ⟨old, hold, hlease', howner⟩ |
      ⟨runnerId, howner, hclaimed, _⟩
    · obtain ⟨runnerId, howner', hclaimed⟩ := hids.stored jobId old leaseId hold hlease'
      exact ⟨runnerId, howner.trans howner', hclaimed.step api a⟩
    · exact ⟨runnerId, howner, hclaimed⟩
  refine ⟨System.sound_step (safe_program api) hids.sound a,
    System.distinct_step hids.distinct hfresh, hstored, fun event promise hhappened hpromise => ?_⟩
  rcases System.happened_step hhappened with hold | hnew
  · exact (hids.made event promise hold hpromise).step api a
  · obtain ⟨job, hjob, howner, hlease, _⟩ := promised_performed hnew hpromise
    obtain ⟨runnerId, howner', hclaimed⟩ := hstored _ job _ hjob hlease
    cases howner.symm.trans howner'
    exact hclaimed

/-! ## Leases that are over -/

theorem Retired.step (hretired : Retired p jobId leaseId) :
    Retired ((service api).step p a) jobId leaseId := by
  obtain ⟨⟨runnerId, hclaimed⟩, hgone⟩ := hretired
  refine ⟨⟨runnerId, hclaimed.step api a⟩, fun job hjob hlease => ?_⟩
  rcases lease_step_cases hids hjob hlease with ⟨old, hold, hlease', _⟩ | ⟨_, _, _, hnew⟩
  · exact hgone old hold hlease'
  · exact hnew _ _ hclaimed

theorem retired_of_promised {other : Promise}
    (hclaimed : Claimed p promise.jobId promise.leaseId promise.runnerId)
    (hjob : p.memory.db.jobs.get? promise.jobId = some job)
    (howner : job.leaseOwnerRunnerId = some other.runnerId)
    (hne : other.runnerId ≠ promise.runnerId) : Retired p promise.jobId promise.leaseId := by
  refine ⟨⟨_, hclaimed⟩, fun job' hjob' hlease => ?_⟩
  cases hjob.symm.trans hjob'
  obtain ⟨runnerId, howner', hclaimed'⟩ := hids.stored _ job _ hjob hlease
  cases howner.symm.trans howner'
  exact hne (hclaimed'.unique hids hclaimed).2

theorem LeaseIds.extended {carried : String} {runnerId : Option String}
    {summary : LeaseSummary} {delivered : Bool} (hmem : task ∈ p.tasks)
    (hresponded : (⟨.respond (.heartbeatLease jobId carried runnerId) summary, delivered⟩ :
      Event Op.Answer) ∈ task.history) (hcarried : stringValue (some carried) = some leaseId)
    (haccepted : summary.accepted = true) : ∃ owner now expiresAt t,
      (⟨.query (.extendLease jobId leaseId owner now expiresAt), .ok (1, t)⟩ :
        Event Op.Answer) ∈ task.history := by
  obtain ⟨before, after, hsplit⟩ := List.append_of_mem hresponded
  obtain ⟨_, hextended⟩ := (hids.sound task hmem).past before _ after hsplit
  obtain ⟨stored, owner, now, expiresAt, t, hstored, hextend⟩ := hextended haccepted
  cases hcarried.symm.trans hstored
  exact ⟨owner, now, expiresAt, t, hsplit ▸ List.mem_append_left _ hextend⟩

end Ids

end Talos.CommandCenter
