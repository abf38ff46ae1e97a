import Talos.CommandCenter.Footprint

/-!
# What a runner is told about its lease

An accepted request for a lease, or heartbeat, tells the runner how long it has the lease.
It rests on a statement that found or wrote the row with this lease: a promise. This is a
rule that every call obeys, together with where the lease ids and the times of the
statements about leases come from.
-/

namespace Talos.CommandCenter

open Interactive Program

/-! ## Promises -/

structure Promise where
  jobId : String
  runnerId : String
  leaseId : String
  expiresAt : Timestamp
deriving DecidableEq

def Job.promise? (jobId : String) (job : Job) : Option Promise :=
  match job.leaseOwnerRunnerId, job.leaseId, job.leaseExpiresAt with
  | some runnerId, some leaseId, some expiresAt => some ⟨jobId, runnerId, leaseId, expiresAt⟩
  | _, _, _ => none

/-- What a statement has found or written. -/
def promise? : Event Op.Answer → Option Promise
  | ⟨.query (.findJob jobId), .ok (some job, _)⟩ => job.promise? jobId
  | ⟨.query (.claimLease jobId leaseId runnerId _ expiresAt), .ok (1, _)⟩ =>
    some ⟨jobId, runnerId, leaseId, expiresAt⟩
  | ⟨.query (.extendLease jobId leaseId runnerId _ expiresAt), .ok (1, _)⟩ =>
    some ⟨jobId, runnerId, leaseId, expiresAt⟩
  | _ => none

def LeaseSummary.promise? (jobId : String) (runnerId : Option String) (summary : LeaseSummary) :
    Option Promise :=
  match summary.accepted, stringValue runnerId, summary.leaseId, summary.leaseExpiresAt with
  | true, some runnerId, some leaseId, some expiresAt =>
    some ⟨jobId, runnerId, leaseId, expiresAt⟩
  | _, _, _, _ => none

def told? : Event Op.Answer → Option Promise
  | ⟨.respond (.acquireLease jobId runnerId) summary, _⟩ => summary.promise? jobId runnerId
  | ⟨.respond (.heartbeatLease jobId _ runnerId) summary, _⟩ => summary.promise? jobId runnerId
  | _ => none

/-! ## What the calls obey -/

/-- What is told rests on a statement. -/
def Founded (h : History) (told : Option Promise) : Prop :=
  ∀ promise, told = some promise → ∃ event ∈ h, ∃ source, promise? event = some source ∧
    source.jobId = promise.jobId ∧ source.runnerId = promise.runnerId ∧
    source.expiresAt = promise.expiresAt ∧
    (source.leaseId = promise.leaseId ∨ stringValue (some source.leaseId) = some promise.leaseId)

def isClaim : Event Op.Answer → Bool
  | ⟨.query (.claimLease ..), _⟩ => true
  | _ => false

def leaseRule (api : Api) (_ : ApiCall) (h : History) : Op → Prop
  | .query (.claimLease jobId leaseId _ now _) =>
    (∃ job, (⟨.query (.findJob jobId), .ok (some job, now)⟩ : Event Op.Answer) ∈ h) ∧
      (∃ id : Uuid, (⟨.uuid, id⟩ : Event Op.Answer) ∈ h ∧ id.text = leaseId) ∧
      ∀ event ∈ h, isClaim event = false
  | .query (.extendLease _ _ _ now expiresAt) => expiresAt = api.leaseExpiresAt now
  | .query (.failExpired _ _ now) => (⟨.clock, now⟩ : Event Op.Answer) ∈ h
  | .query (.createJob job) => job.leaseId = none
  | .respond (.acquireLease jobId runnerId) summary => Founded h (summary.promise? jobId runnerId)
  | .respond (.heartbeatLease jobId leaseId runnerId) summary =>
    Founded h (summary.promise? jobId runnerId) ∧
      (summary.accepted = true → ∃ stored owner now expiresAt t,
        stringValue (some leaseId) = some stored ∧
        (⟨.query (.extendLease jobId stored owner now expiresAt), .ok (1, t)⟩ :
          Event Op.Answer) ∈ h)
  | _ => True

/-- An operation that the rule has nothing to say about. -/
def LeaseFree : Op → Prop
  | .query (.claimLease ..) | .query (.extendLease ..) | .query (.failExpired ..) => False
  | .query (.createJob job) => job.leaseId = none
  | .respond (.acquireLease ..) _ | .respond (.heartbeatLease ..) _ => False
  | _ => True

variable {op : Op}

theorem leaseRule_of_leaseFree (hop : LeaseFree op) (api : Api) (call : ApiCall)
    (h : History) : leaseRule api call h op := by
  unfold leaseRule
  split <;> trivial

section Handlers

variable (api : Api) (call : ApiCall)

-- the values of a request are not looked into
attribute [local irreducible] stringValue

variable {h : History}

theorem safe_of_leaseFree {α : Type} {p : Handler α} (hp : Within LeaseFree p) :
    Safe (leaseRule api call) h p fun h' _ => h <+: h' :=
  hp.safe (fun h' _ _ hop => leaseRule_of_leaseFree hop api call h') fun _ _ hpre _ => hpre

variable {summary : LeaseSummary} {existing : Job}

theorem owner_of_leaseVerdict {runnerId : String} {now : Timestamp}
    (hverdict : leaseVerdict existing runnerId now = some summary)
    (haccepted : summary.accepted = true) :
    existing.leaseOwnerRunnerId = some runnerId ∧ summary.leaseId = stringValue existing.leaseId ∧
      summary.leaseExpiresAt = existing.leaseExpiresAt := by
  unfold leaseVerdict at hverdict
  split at hverdict
  · cases hverdict
    cases haccepted
  · split at hverdict
    · split at hverdict
      next howner =>
        cases hverdict
        exact ⟨howner, rfl, rfl⟩
      next =>
        cases hverdict
        cases haccepted
    · cases hverdict

variable {jobId : String} {runnerId : Option String}

theorem LeaseSummary.promise?_eq_some {promise : Promise}
    (hpromise : summary.promise? jobId runnerId = some promise) :
    summary.accepted = true ∧ promise.jobId = jobId ∧ stringValue runnerId = some promise.runnerId ∧
      summary.leaseId = some promise.leaseId ∧ summary.leaseExpiresAt = some promise.expiresAt := by
  unfold LeaseSummary.promise? at hpromise
  split at hpromise
  next haccepted hrunner hlease hexpires =>
    cases hpromise
    exact ⟨haccepted, rfl, hrunner, hlease, hexpires⟩
  next => cases hpromise

theorem founded_of_rejected (hrejected : summary.accepted = false) :
    Founded h (summary.promise? jobId runnerId) := by
  intro promise hpromise
  rw [(LeaseSummary.promise?_eq_some hpromise).1] at hrejected
  cases hrejected

variable {runner : String}

theorem founded_of_leaseVerdict {now : Timestamp} (hrunner : stringValue runnerId = some runner)
    (hread : (⟨.query (.findJob jobId), .ok (some existing, now)⟩ : Event Op.Answer) ∈ h)
    (hverdict : leaseVerdict existing runner now = some summary) :
    Founded h (summary.promise? jobId runnerId) := by
  intro promise hpromise
  obtain ⟨haccepted, hjob, hrunner', hlease, hexpires⟩ := LeaseSummary.promise?_eq_some hpromise
  obtain ⟨howner, hlease', hexpires'⟩ := owner_of_leaseVerdict hverdict haccepted
  rw [hrunner] at hrunner'
  rw [hlease'] at hlease
  rw [hexpires'] at hexpires
  cases hrunner'
  cases hleaseId : existing.leaseId with
  | none =>
    rw [hleaseId, stringValue_none] at hlease
    cases hlease
  | some leaseId =>
    refine ⟨_, hread, ⟨jobId, promise.runnerId, leaseId, promise.expiresAt⟩, ?_, hjob.symm, rfl,
      rfl, .inr (hleaseId ▸ hlease)⟩
    simp only [promise?, Job.promise?, howner, hleaseId, hexpires]

theorem founded_of_written {event : Event Op.Answer} {leaseId : String} {record : Option Job}
    {expiresAt : Timestamp} (hrunner : stringValue runnerId = some runner) (hevent : event ∈ h)
    (hsource : promise? event = some ⟨jobId, runner, leaseId, expiresAt⟩) :
    Founded h ((toLeaseSummary record true none (some leaseId) (some expiresAt)).promise?
      jobId runnerId) := by
  intro promise hpromise
  obtain ⟨_, hjob, hrunner', hlease, hexpires⟩ := LeaseSummary.promise?_eq_some hpromise
  rw [hrunner] at hrunner'
  cases hrunner'
  cases hlease
  cases hexpires
  exact ⟨_, hevent, _, hsource, hjob.symm, rfl, rfl, .inl rfl⟩

theorem safe_claimAiRunnerJobLease {now : Timestamp} (hrunner : stringValue runnerId = some runner)
    (hread : (⟨.query (.findJob jobId), .ok (some existing, now)⟩ : Event Op.Answer) ∈ h)
    (hclaims : ∀ event ∈ h, isClaim event = false) :
    Safe (leaseRule api call) h (claimAiRunnerJobLease api jobId runner now)
      (OnOk fun h' summary => Founded h' (summary.promise? jobId runnerId)) := by
  refine safe_bind_iff.mpr ⟨trivial, fun leaseId => ?_⟩
  have hrule : leaseRule api call (h ++ [⟨.uuid, leaseId⟩])
      (.query (.claimLease jobId leaseId.text runner now (api.leaseExpiresAt now))) := by
    refine ⟨⟨existing, List.mem_append_left _ hread⟩,
      ⟨leaseId, List.mem_append_right _ List.mem_cons_self, rfl⟩, fun event hevent => ?_⟩
    rcases List.mem_append.mp hevent with hevent | hevent
    · exact hclaims event hevent
    · cases List.mem_singleton.mp hevent
      rfl
  refine safe_bind_iff.mpr (safe_query.mpr ⟨hrule, fun count t => ?_, fun _ => trivial⟩)
  refine safe_bind_iff.mpr (safe_query.mpr ⟨trivial, fun record t' => ?_, fun _ => trivial⟩)
  refine safe_ite.mpr ⟨fun _ => founded_of_rejected rfl, fun hone => ?_⟩
  · have hcount : count = 1 := not_not.mp hone
    subst hcount
    have hclaim := List.mem_append_left
      [(⟨.query (.findJob jobId), .ok (record, t')⟩ : Event Op.Answer)]
      (List.mem_append_right (h ++ [⟨.uuid, leaseId⟩]) (List.mem_singleton_self
        (⟨.query (.claimLease jobId leaseId.text runner now (api.leaseExpiresAt now)), .ok (1, t)⟩ :
          Event Op.Answer)))
    cases record with
    | none => exact founded_of_written hrunner hclaim rfl
    | some job =>
      exact (safe_of_leaseFree api call (confined_createAiRunnerEvent (fun _ _ => trivial)
        (fun _ => trivial) _ _ _ _)).bind
        (fun h' event hpre _ => founded_of_written hrunner (hpre.subset hclaim) rfl)
        fun _ _ _ _ => trivial

theorem safe_acquireAiRunnerJobLease (jobId : String) (runnerId : Option String) :
    Safe (leaseRule api call) [] (acquireAiRunnerJobLease api jobId runnerId)
      (OnOk fun h' reply => ∀ summary ∈ reply, Founded h' (summary.promise? jobId runnerId)) := by
  refine safe_bind_iff.mpr (safe_orFail.mpr ⟨fun runner hrunner => ?_, fun _ => trivial⟩)
  refine safe_bind_iff.mpr (safe_queryAt.mpr ⟨trivial, fun existing now => ?_, fun _ => trivial⟩)
  cases existing with
  | none => exact fun summary hok => nomatch hok
  | some existing =>
    have hread := List.mem_singleton_self
      (⟨.query (.findJob jobId), .ok (some existing, now)⟩ : Event Op.Answer)
    dsimp only
    cases hverdict : leaseVerdict existing runner now with
    | some found =>
      intro summary hok
      cases hok
      exact founded_of_leaseVerdict hrunner hread hverdict
    | none =>
      have hclaims : ∀ event ∈ [(⟨.query (.findJob jobId), .ok (some existing, now)⟩ :
          Event Op.Answer)], isClaim event = false := by
        intro event hevent
        cases List.mem_singleton.mp hevent
        rfl
      refine (safe_claimAiRunnerJobLease api call hrunner hread hclaims).bind
        (fun h' summary _ hfounded other hok => ?_) fun _ _ _ _ => trivial
      cases hok
      exact hfounded

theorem safe_heartbeatAiRunnerJobLease (jobId leaseId : String) (runnerId : Option String) :
    Safe (leaseRule api call) [] (heartbeatAiRunnerJobLease api jobId leaseId runnerId)
      (OnOk fun h' reply => ∀ summary ∈ reply,
        leaseRule api call h' (.respond (.heartbeatLease jobId leaseId runnerId) summary)) := by
  refine safe_bind_iff.mpr (safe_orFail.mpr ⟨fun lease hlease => ?_, fun _ => trivial⟩)
  refine safe_bind_iff.mpr (safe_orFail.mpr ⟨fun runner hrunner => ?_, fun _ => trivial⟩)
  refine safe_bind_iff.mpr ⟨trivial, fun now => ?_⟩
  refine safe_bind_iff.mpr (safe_query.mpr ⟨rfl, fun count t => ?_, fun _ => trivial⟩)
  refine safe_bind_iff.mpr (safe_query.mpr ⟨trivial, fun record t' => ?_, fun _ => trivial⟩)
  cases record with
  | none => exact fun summary hok => nomatch hok
  | some record =>
    refine safe_ite.mpr ⟨fun _ summary hok => ?_, fun hone summary hok => ?_⟩
    · cases hok
      exact ⟨founded_of_rejected rfl, fun haccepted => nomatch haccepted⟩
    · have hcount : count = 1 := not_not.mp hone
      subst hcount
      cases hok
      have hextend : (⟨.query (.extendLease jobId lease runner now (api.leaseExpiresAt now)),
          .ok (1, t)⟩ : Event Op.Answer) ∈ [] ++ [(⟨.clock, now⟩ : Event Op.Answer)] ++
            [⟨.query (.extendLease jobId lease runner now (api.leaseExpiresAt now)), .ok (1, t)⟩] ++
            [⟨.query (.findJob jobId), .ok (some record, t')⟩] :=
        List.mem_append_left _ (List.mem_append_right _ (List.mem_singleton_self _))
      exact ⟨founded_of_written hrunner hextend rfl,
        fun _ => ⟨lease, runner, now, _, t, hlease, hextend⟩⟩

theorem safe_reconcile :
    Safe (leaseRule api call) [] reconcileExpiredAiRunnerJobLeases fun _ _ => True := by
  refine safe_bind_iff.mpr ⟨trivial, fun now => ?_⟩
  refine safe_bind_iff.mpr (safe_query.mpr ⟨trivial, fun expired t => ?_, fun _ => trivial⟩)
  refine (confined_reconcileJobs now expired).safe_of_invariant
    (J := fun h => (⟨.clock, now⟩ : Event Op.Answer) ∈ h) (fun h op answer hclock _ => ?_)
    (fun h op hclock hop => ?_) (fun _ _ _ _ => trivial) ?_
  · exact List.mem_append_left _ hclock
  · unfold expiryFootprint at hop
    split at hop
    · trivial
    · trivial
    · subst hop
      exact hclock
    · exact hop.elim
  · exact List.mem_append_left _ (List.mem_append_right _ (List.mem_singleton_self _))

end Handlers

/-! ## Calls that have nothing to do with leases -/

theorem leaseFree_createJob (hop : createJobFootprint op) : LeaseFree op := by
  unfold createJobFootprint at hop
  split at hop <;> trivial

theorem leaseFree_stop (hop : stopFootprint op) : LeaseFree op := by
  unfold stopFootprint at hop
  split at hop <;> trivial

theorem leaseFree_approve {approvalId : String} (hop : approveFootprint approvalId op) :
    LeaseFree op := by
  unfold approveFootprint at hop
  split at hop <;> trivial

theorem leaseFree_deny (hop : denyFootprint op) : LeaseFree op := by
  unfold denyFootprint at hop
  split at hop
  · trivial
  · exact leaseFree_stop hop

theorem leaseFree_desktop (hop : desktopFootprint op) : LeaseFree op := by
  unfold desktopFootprint at hop
  split at hop <;> trivial

theorem safe_of_footprint {α : Type} {p : Handler α} {f : α → Handler Unit} {P : Op → Prop}
    (api : Api) (call : ApiCall) (hp : Within P p)
    (hP : ∀ {op}, P op → LeaseFree op) (hf : ∀ a, Within LeaseFree (f a)) :
    Safe (leaseRule api call) [] (p >>= f) fun _ _ => True := by
  have hall : Within LeaseFree (p >>= f) :=
    Within.bind (hp.mono (fun _ => hP) fun _ _ => trivial) hf
  exact (safe_of_leaseFree api call hall).mono fun _ _ _ _ => trivial

theorem safe_callback (api : Api) (call : ApiCall) (request : Callback) :
    Safe (leaseRule api call) [] (ApiCall.program api (.callback request)) fun _ _ => True := by
  have hconfined := confined_serve api request
  cases request with
  | acquireLease jobId runnerId =>
    refine (safe_acquireAiRunnerJobLease api call jobId runnerId).bind
      (fun h' reply _ hfounded => ?_) fun _ _ _ _ => trivial
    cases reply with
    | none => trivial
    | some summary => exact safe_bind_iff.mpr ⟨hfounded summary rfl, fun _ => trivial⟩
  | heartbeatLease jobId leaseId runnerId =>
    refine (safe_heartbeatAiRunnerJobLease api call jobId leaseId runnerId).bind
      (fun h' reply _ hrule => ?_) fun _ _ _ _ => trivial
    cases reply with
    | none => trivial
    | some summary => exact safe_bind_iff.mpr ⟨hrule summary rfl, fun _ => trivial⟩
  | releaseLease | event | status | createApproval | getApproval | approvalResult =>
    refine safe_of_footprint api call hconfined (fun hop => ?_) (within_respond fun _ => trivial)
    simp only [Callback.footprint, releaseFootprint, eventFootprint, statusFootprint,
      createApprovalFootprint, getApprovalFootprint, resultFootprint] at hop
    split at hop <;> first | exact True.intro | exact hop.elim

theorem safe_program (api : Api) (call : ApiCall) :
    Safe (leaseRule api call) [] (call.program api) fun _ _ => True := by
  cases call with
  | callback request => exact safe_callback api _ request
  | approve context approvalId =>
    exact safe_of_footprint api _ (confined_approveAiRunnerCommandApproval context approvalId)
      leaseFree_approve fun _ => trivial
  | deny context approvalId =>
    exact safe_of_footprint api _ (confined_denyAiRunnerCommandApproval context approvalId)
      leaseFree_deny fun _ => trivial
  | denyAndUseDesktopControl context approvalId =>
    exact safe_of_footprint api _ (confined_denyAndUseDesktopControl context approvalId)
      leaseFree_desktop fun _ => trivial
  | stop context jobId =>
    exact safe_of_footprint api _ (confined_stopAiRunnerJob context jobId)
      leaseFree_stop fun _ => trivial
  | createJob input =>
    exact safe_of_footprint api _ (confined_createAiRunnerJob input)
      leaseFree_createJob fun _ => trivial
  | reconcile => exact safe_reconcile api _

end Talos.CommandCenter
