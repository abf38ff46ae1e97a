import Talos.CommandCenter.LeaseIds

/-!
# One lease at a time

A runner that was told that it has the lease of a job until some time has it until then,
unless it gives it back: nobody else gets the lease before. Once somebody else has got it,
the old lease does not come back, and a heartbeat with it is rejected.

The first half needs that no heartbeat takes time away from a lease. Two heartbeats of one
lease that overtake each other do: the row keeps the end that the earlier one computed,
when the runner was already told the later one.
-/

namespace Talos.CommandCenter

open Interactive Program Relational Transition

/-! ## Kept promises -/

def Released (p : Service) (promise : Promise) : Prop :=
  ∃ n t, n ≠ 0 ∧ System.Happened p
    ⟨.query (.clearLease promise.jobId promise.leaseId promise.runnerId), .ok (n, t)⟩

def Kept (p : Service) (promise : Promise) : Prop :=
  Released p promise ∨ promise.expiresAt ≤ p.memory.clock ∨
    ∃ job expiresAt, p.memory.db.jobs.get? promise.jobId = some job ∧
      job.leaseOwnerRunnerId = some promise.runnerId ∧ job.leaseId = some promise.leaseId ∧
      job.leaseExpiresAt = some expiresAt ∧ promise.expiresAt ≤ expiresAt

structure LeaseLedger (api : Api) (p : Service) : Prop where
  ids : LeaseIds api p
  times : ∀ event t, System.Happened p event → time? event = some t → t ≤ p.memory.clock
  kept : ∀ event promise, System.Happened p event → promise? event = some promise → Kept p promise

/-- A heartbeat that is about to extend a lease does not take time away from it. -/
def NeverShortens (api : Api) (p : Service) (a : ServiceAction) : Prop :=
  match (service api).performed p a with
  | some ⟨.query (.extendLease jobId leaseId runnerId now _), _⟩ =>
    ∀ job ∈ p.memory.db.jobs.get? jobId, job.leaseExtendable leaseId runnerId now = true →
      ∀ stored ∈ job.leaseExpiresAt, stored ≤ api.leaseExpiresAt now
  | _ => True

instance (api : Api) (p : Service) (a : ServiceAction) : Decidable (NeverShortens api p a) := by
  unfold NeverShortens
  split <;> infer_instance

section Step

variable {api : Api} {p : Service} {a : ServiceAction}

theorem LeaseLedger.past (hledger : LeaseLedger api p)
    {task : Task ApiCall Op.Answer Failure Unit} {event : Event Op.Answer} {t : Timestamp}
    (htask : task ∈ p.tasks) (hevent : event ∈ task.history)
    (htime : time? event = some t) : t ≤ p.memory.clock :=
  hledger.times event t ⟨task, htask, hevent⟩ htime

theorem Released.step {promise : Promise} (h : Released p promise) (api : Api)
    (a : ServiceAction) : Released ((service api).step p a) promise := by
  obtain ⟨n, t, hn, hhappened⟩ := h
  exact ⟨n, t, hn, hhappened.step (service api) a⟩

theorem le_of_leaseClaimable {job : Job} {leaseId : String} {now expiresAt : Timestamp}
    (hlease : job.leaseId = some leaseId) (hexpires : job.leaseExpiresAt = some expiresAt)
    (hclaimable : job.leaseClaimable now = true) : expiresAt ≤ now := by
  simpa [Job.leaseClaimable, hlease, hexpires] using (Bool.and_eq_true_iff.mp hclaimable).2

theorem le_of_leaseExpired {job : Job} {now expiresAt : Timestamp}
    (hexpires : job.leaseExpiresAt = some expiresAt) (hexpired : job.leaseExpired now = true) :
    expiresAt ≤ now := by
  simpa [Job.leaseExpired, hexpires] using (Bool.and_eq_true_iff.mp hexpired).2

theorem Kept.step (hledger : LeaseLedger api p) (hshortens : NeverShortens api p a)
    {promise : Promise} (hkept : Kept p promise) : Kept ((service api).step p a) promise := by
  obtain ⟨hclock, _, hdb⟩ := siteStep api p a
  rcases hkept with hreleased | hover | ⟨job, expiresAt, hjob, howner, hlease, hexpires, hle⟩
  · exact .inl (hreleased.step api a)
  · exact .inr (.inl (hover.trans hclock))
  · rcases hdb with ⟨hsame, _⟩ | ⟨s, hperformed, hdb⟩
    · exact .inr (.inr ⟨job, expiresAt, by rw [hsame, hjob], howner, hlease, hexpires, hle⟩)
    · obtain ⟨task, htask, hrule⟩ := hledger.ids.rule hperformed
      have hget := get?_execute hjob s
      rw [← hdb] at hget
      have hid : job.id = promise.jobId := Keyed.key_of_get? hjob
      rcases onJob_lease_cases s job with ⟨hsame, hsame', hsame''⟩ |
        ⟨leaseId, runnerId, now, until', rfl, hclaimable, _⟩ |
        ⟨leaseId, runnerId, now, until', rfl, hextendable, hrow⟩ |
        ⟨leaseId, runnerId, rfl, hholds, _⟩ | ⟨leaseId, now, rfl, _, hexpired, _⟩
      · exact .inr (.inr ⟨_, expiresAt, hget, hsame'.trans howner, hsame.trans hlease,
          hsame''.trans hexpires, hle⟩)
      · obtain ⟨⟨read, hread⟩, _⟩ := hrule
        have hnow := hledger.past htask hread rfl
        have hout := le_of_leaseClaimable hlease hexpires hclaimable
        exact .inr (.inl (hle.trans (hout.trans (hnow.trans hclock))))
      · rw [NeverShortens, hperformed] at hshortens
        have hlonger := hshortens job (hid ▸ hjob) hextendable expiresAt hexpires
        rw [hrow] at hget
        exact .inr (.inr ⟨_, until', hget, howner, hlease, rfl, hle.trans (hrule ▸ hlonger)⟩)
      · have hcount := updateJobs_ne_zero (hid ▸ hjob) hholds Job.clearLease
        have hhappened := System.happened_of_performed hperformed
        simp only [Job.holdsLease, Bool.and_eq_true, decide_eq_true_eq] at hholds
        cases hlease.symm.trans hholds.1
        cases howner.symm.trans hholds.2
        rw [hid] at hcount hhappened
        exact .inl ⟨_, _, hcount, hhappened⟩
      · have hnow := hledger.past htask hrule rfl
        have hout := le_of_leaseExpired hexpires hexpired
        exact .inr (.inl (hle.trans (hout.trans (hnow.trans hclock))))

theorem LeaseLedger.step (hledger : LeaseLedger api p) (hfresh : (service api).Fresh uuid? p a)
    (hshortens : NeverShortens api p a) : LeaseLedger api ((service api).step p a) where
  ids := hledger.ids.step hfresh
  times event t hhappened htime := by
    rcases System.happened_step hhappened with hold | hnew
    · exact (hledger.times event t hold htime).trans (siteStep api p a).clock
    · exact ((siteStep api p a).time event t hnew htime).le
  kept event promise hhappened hpromise := by
    rcases System.happened_step hhappened with hold | hnew
    · exact (hledger.kept event promise hold hpromise).step hledger hshortens
    · obtain ⟨job, hjob, howner, hlease, hexpires⟩ := promised_performed hnew hpromise
      exact .inr (.inr ⟨job, _, hjob, howner, hlease, hexpires, le_rfl⟩)

theorem leaseLedger_start (api : Api) (clock : Timestamp) :
    LeaseLedger api (Service.start clock) where
  ids := leaseIds_start api clock
  times _ _ hhappened := by
    obtain ⟨_, hmem, _⟩ := hhappened
    cases hmem
  kept _ _ hhappened := by
    obtain ⟨_, hmem, _⟩ := hhappened
    cases hmem

end Step

/-! ## Exclusion -/

def Made (p : Service) (promise : Promise) : Prop :=
  ∃ task ∈ p.tasks, ∃ event ∈ task.history,
    promise? event = some promise ∨ told? event = some promise

instance (p : Service) (promise : Promise) : Decidable (Made p promise) :=
  inferInstanceAs (Decidable (∃ task ∈ p.tasks, _))

def Promise.Supersedes (other promise : Promise) : Prop :=
  other.jobId = promise.jobId ∧ other.runnerId ≠ promise.runnerId

/-- A step that gives the lease to somebody else, or finds that somebody else has it, comes
after the end of the promise. -/
def Waits (api : Api) (p : Service) (a : ServiceAction) : Prop :=
  ∀ promise other event t, Made p promise → (service api).performed p a = some event →
    promise? event = some other → other.Supersedes promise → time? event = some t →
    Released p promise ∨ promise.expiresAt ≤ t

/-- After such a step every heartbeat with the lease of the promise that has not extended it
by then is rejected. -/
def Rejects (api : Api) (p : Service) (a : ServiceAction) (later : List ServiceAction) : Prop :=
  ∀ promise other event, Made p promise → (service api).performed p a = some event →
    promise? event = some other → other.Supersedes promise →
    ∀ i task carried runnerId summary delivered,
      NotExtended i ((service api).step p a) promise.jobId promise.leaseId →
      (run (service api).step p (a :: later)).tasks[i]? = some task →
      stringValue (some carried) = some promise.leaseId →
      (⟨.respond (.heartbeatLease promise.jobId carried runnerId) summary, delivered⟩ :
        Event Op.Answer) ∈ task.history →
      summary.accepted = false

section Exclusion

variable {api : Api} {p : Service} {a : ServiceAction}

/-- What a runner is told was found or written. -/
theorem LeaseLedger.promised_of_made (hledger : LeaseLedger api p) {promise : Promise}
    (hmade : Made p promise) :
    ∃ event, System.Happened p event ∧ promise? event = some promise := by
  obtain ⟨task, hmem, event, hevent, hpromise | htold⟩ := hmade
  · exact ⟨event, ⟨task, hmem, hevent⟩, hpromise⟩
  · obtain ⟨before, after, hsplit⟩ := List.append_of_mem hevent
    have hrule := (hledger.ids.sound task hmem).past before _ after hsplit
    have hfounded : ∃ event ∈ before, ∃ source, promise? event = some source ∧
        source.jobId = promise.jobId ∧ source.runnerId = promise.runnerId ∧
        source.expiresAt = promise.expiresAt ∧ (source.leaseId = promise.leaseId ∨
          stringValue (some source.leaseId) = some promise.leaseId) := by
      unfold told? at htold
      split at htold
      · exact hrule promise htold
      · exact hrule.1 promise htold
      · cases htold
    obtain ⟨event, hbefore, source, hsource, hjob, hrunner, hexpires, hlease⟩ := hfounded
    have hhappened : System.Happened p event :=
      ⟨task, hmem, hsplit ▸ List.mem_append_left _ hbefore⟩
    -- the id of a lease has no white space to lose
    have hclean := (hledger.ids.made event source hhappened hsource).clean hledger.ids
    have hsame : source.leaseId = promise.leaseId :=
      hlease.elim id fun htrimmed => Option.some.inj (hclean.symm.trans htrimmed)
    have hpromise : source = promise := by
      cases source
      cases promise
      simp_all
    exact ⟨event, hhappened, hpromise ▸ hsource⟩

theorem LeaseLedger.waits (hledger : LeaseLedger api p) (hshortens : NeverShortens api p a) :
    Waits api p a := by
  intro promise other event t hmade hperformed hother hsupersedes htime
  obtain ⟨source, hhappened, hpromise⟩ := hledger.promised_of_made hmade
  obtain ⟨job, hjob, howner, hlease, hexpires⟩ := promised_performed hperformed hother
  rw [hsupersedes.1] at hjob
  have hkept := (hledger.kept source promise hhappened hpromise).step hledger hshortens
  rcases hkept with ⟨n, t', hn, hreleased⟩ | hover | ⟨job', _, hjob', howner', _⟩
  · rcases System.happened_step hreleased with hold | hnew
    · exact .inl ⟨n, t', hn, hold⟩
    · cases hnew.symm.trans hperformed
      cases hother
  · exact .inr ((siteStep api p a).time event t hperformed htime ▸ hover)
  · cases hjob.symm.trans hjob'
    exact absurd (Option.some.inj (howner.symm.trans howner')) hsupersedes.2

theorem LeaseLedger.rejects (hledger : LeaseLedger api p) {later : List ServiceAction}
    (hfresh : along (service api).step ((service api).Fresh uuid?) p (a :: later)) :
    Rejects api p a later := by
  intro promise other event hmade hperformed hother hsupersedes i task carried runnerId summary
    delivered hnot htask hcarried hresponded
  obtain ⟨source, hhappened, hpromise⟩ := hledger.promised_of_made hmade
  obtain ⟨job, hjob, howner, _⟩ := promised_performed hperformed hother
  rw [hsupersedes.1] at hjob
  have hids := hledger.ids.step hfresh.1
  have hclaimed := (hledger.ids.made source promise hhappened hpromise).step api a
  have hretired := retired_of_promised hids hclaimed hjob howner hsupersedes.2
  obtain ⟨hids', _, hnot'⟩ := run_invariant_along
    (P := fun q => LeaseIds api q ∧ Retired q promise.jobId promise.leaseId ∧
      NotExtended i q promise.jobId promise.leaseId)
    (fun q b hq hfresh => ⟨hq.1.step hfresh, hq.2.1.step hq.1, hq.2.2.step hq.2.1⟩)
    ⟨hids, hretired, hnot⟩ hfresh.2
  by_contra haccepted
  obtain ⟨_, _, _, _, hextended⟩ := hids'.extended (List.mem_of_getElem? htask) hresponded hcarried
    (by simpa using haccepted)
  exact hnot' task htask _ _ _ _ hextended

end Exclusion

/-- Every step of the run waits for the promises, and those it supersedes are over. -/
def LeasesExclude (api : Api) (clock : Timestamp) (as : List ServiceAction) : Prop :=
  ∀ before a later, as = before ++ a :: later →
    Waits api (run (service api).step (Service.start clock) before) a ∧
      Rejects api (run (service api).step (Service.start clock) before) a later

theorem leases_exclude_of_neverShortens (api : Api) (clock : Timestamp) (as : List ServiceAction)
    (hfresh : along (service api).step ((service api).Fresh uuid?) (Service.start clock) as)
    (hshortens : along (service api).step (NeverShortens api) (Service.start clock) as) :
    LeasesExclude api clock as := by
  rintro before a later rfl
  rw [along_append] at hfresh hshortens
  have hledger : LeaseLedger api (run (service api).step (Service.start clock) before) :=
    run_invariant_along (fun p a hledger hboth => hledger.step hboth.1 hboth.2)
      (leaseLedger_start api clock) (along_and.mpr ⟨hfresh.1, hshortens.1⟩)
  exact ⟨hledger.waits hshortens.2.1, hledger.rejects hfresh.2⟩

/-! ## Heartbeats that overtake each other -/

section Overtaking

def Outside.generating (id : Uuid) (now : Timestamp) : Outside :=
  { Outside.plain now with
    answer := fun
      | .uuid => id
      | op => (Outside.plain now).answer op }

def leasedAtZero : List ServiceAction :=
  [.start (.createJob ⟨"org", "user", none, shellJobType, true⟩)] ++ advances 0 6 0 ++
    [.start (.callback (.acquireLease "approval" (some "first")))] ++ advances 1 7 0

def heartbeat : ServiceAction :=
  .start (.callback (.heartbeatLease "approval" "lease" (some "first")))

def claimedAt (i : ℕ) (now : Timestamp) : List ServiceAction :=
  [.start (.callback (.acquireLease "approval" (some "second"))), .advance i (.plain now),
    .advance i (.generating ⟨"other", by decide, by decide⟩ now), .advance i (.plain now)]

theorem leases_exclude_in_turn : LeasesExclude bareApi 0
      (leasedAtZero ++ heartbeat :: advances 2 4 20000 ++ claimedAt 3 50000) :=
  leases_exclude_of_neverShortens _ _ _ (by decide +kernel) (by decide +kernel)

/-- The heartbeat that read the clock at 1 is executed after the one of 20000, which told the
runner that it has the lease until 50000. -/
def overtaken : List ServiceAction :=
  leasedAtZero ++ [heartbeat] ++ advances 2 1 1 ++ [heartbeat] ++ advances 3 4 20000 ++
    advances 2 1 20000

def isRelease : Event Op.Answer → Bool
  | ⟨.query (.clearLease ..), _⟩ => true
  | _ => false

def beforeClaim : Service :=
  run (service bareApi).step (Service.start 0) (overtaken ++ (claimedAt 4 30001).take 3)

theorem not_leasesExclude_overtaken :
    along (service bareApi).step ((service bareApi).Fresh uuid?) (Service.start 0)
        (overtaken ++ claimedAt 4 30001) ∧
      (∃ task ∈ beforeClaim.tasks, ∃ event ∈ task.history,
        told? event = some ⟨"approval", "first", "lease", 50000⟩) ∧
      ¬ LeasesExclude bareApi 0 (overtaken ++ claimedAt 4 30001) := by
  refine ⟨by decide +kernel, by decide +kernel, fun hexclude => ?_⟩
  obtain ⟨hwaits, _⟩ := hexclude (overtaken ++ (claimedAt 4 30001).take 3)
    (.advance 4 (.plain 30001)) [] rfl
  have hmade : Made beforeClaim ⟨"approval", "first", "lease", 50000⟩ := by decide +kernel
  have hclaim : ∃ event,
      (service bareApi).performed beforeClaim (.advance 4 (.plain 30001)) = some event ∧
        promise? event = some ⟨"approval", "second", "other", 60001⟩ ∧ time? event = some 30001 :=
    ⟨_, rfl, by decide +kernel, by decide +kernel⟩
  have hkept : ∀ task ∈ beforeClaim.tasks, ∀ event ∈ task.history, isRelease event = false := by
    decide +kernel
  obtain ⟨event, hperformed, hother, htime⟩ := hclaim
  rcases hwaits _ _ event _ hmade hperformed hother ⟨rfl, by decide⟩ htime with
    ⟨_, _, _, task, hmem, hreleased⟩ | hle
  · exact nomatch hkept task hmem _ hreleased
  · exact absurd hle (by decide)

end Overtaking

end Talos.CommandCenter
