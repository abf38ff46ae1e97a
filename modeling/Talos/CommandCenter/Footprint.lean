import Talos.CommandCenter.Approvals

/-!
# What each call can do

The operations that a call performs, call by call: which statements it makes, and which
status it gives to a job or an approval.
-/

namespace Talos.CommandCenter

open Interactive Program JavaScript

/-! ## Footprints -/

def acquireFootprint : Op → Prop
  | .query (.findJob _) | .uuid | .query (.claimLease ..) | .query (.findEvent ..)
  | .query (.createEvent _) => True
  | _ => False

def heartbeatFootprint : Op → Prop
  | .clock | .query (.extendLease ..) | .query (.findJob _) => True
  | _ => False

def releaseFootprint : Op → Prop
  | .query (.findJob _) | .query (.clearLease ..) | .query (.findEvent ..)
  | .query (.createEvent _) => True
  | _ => False

def reconcileFootprint : Op → Prop
  | .clock | .query (.findExpiredJobs _) | .query (.failExpired ..) | .query (.findEvent ..)
  | .query (.createEvent _) => True
  | _ => False

def expiryFootprint (now : Timestamp) : Op → Prop
  | .query (.findEvent ..) | .query (.createEvent _) => True
  | .query (.failExpired _ _ time) => time = now
  | _ => False

def createJobFootprint : Op → Prop
  | .cuid | .attachSecrets _ | .startRunner _ | .query (.updateJob ..) => True
  | .query (.createJob job) => job.leaseId = none
  | _ => False

def eventFootprint : Op → Prop
  | .query (.findJob _) | .query (.findEvent ..) | .query (.createEvent _)
  | .query (.findOutputDeltas ..) | .outputLengths | .query (.deleteEvents ..) => True
  | _ => False

def statusFootprint : Op → Prop
  | .query (.findJob _) | .query (.findEvent ..) | .query (.createEvent _)
  | .query (.updateJob ..) => True
  | _ => False

def stopFootprint : Op → Prop
  | .query (.findJobOf ..) | .query (.requestStop ..) | .query (.findJob _) | .query (.findEvent ..)
  | .query (.createEvent _) | .query (.findOpenApprovals ..) | .stopRunner _
  | .query (.finishStop ..) => True
  | .query (.updateApproval _ data) => data.status = some .denied ∨ data.status = some .failed
  | _ => False

def createApprovalFootprint : Op → Prop
  | .query (.findJob _) | .query (.findEvent ..) | .query (.createEvent _)
  | .query (.findApproval ..) | .query (.findApprovalOfTurn ..) | .query (.linkEvent ..)
  | .cuid | .appendMessage _ => True
  | .query (.createApproval approval) => approval.status = .pending
  | .query (.updateApproval _ data) => data.status = none
  | _ => False

def getApprovalFootprint : Op → Prop
  | .query (.findApproval ..) => True
  | .query (.updateApproval _ data) => data.status = some .expired
  | _ => False

def resultFootprint : Op → Prop
  | .query (.findApproval ..) | .query (.findJob _) | .query (.findEvent ..)
  | .query (.createEvent _) => True
  | .query (.updateApproval _ data) => data.status = some .executing ∨
      data.status = some .executed ∨ data.status = some .failed
  | _ => False

def approveFootprint (approvalId : String) : Op → Prop
  | .query (.findApprovalOf ..) => True
  | .query (.updateApproval id data) => id = approvalId ∧ data.status = some .approved
  | _ => False

def denyFootprint : Op → Prop
  | .query (.findApprovalOf ..) => True
  | op => stopFootprint op

def desktopFootprint : Op → Prop
  | .query (.findApprovalOf ..) | .query (.findJobOf ..) | .query (.updateJob ..)
  | .query (.findEvent ..) | .query (.createEvent _) => True
  | .query (.updateApproval _ data) => data.status = some .desktopControlRequested
  | _ => False

def Callback.footprint : Callback → Op → Prop
  | .acquireLease .. => acquireFootprint
  | .heartbeatLease .. => heartbeatFootprint
  | .releaseLease .. => releaseFootprint
  | .event .. => eventFootprint
  | .status .. => statusFootprint
  | .createApproval .. => createApprovalFootprint
  | .getApproval .. => getApprovalFootprint
  | .approvalResult .. => resultFootprint

/-! ## Parts of a handler -/

section Parts

variable {P : Op → Prop} {α : Type} {s : Statement}

theorem confined_query_bind {f : s.Result → Handler α} (hs : P (.query s))
    (hf : ∀ value, Within P (f value)) : Within P (query s >>= f) :=
  confined_bind_iff.mpr (confined_query.mpr ⟨hs, hf, fun _ => trivial⟩)

theorem confined_queryAt_bind {f : s.Result × Timestamp → Handler α} (hs : P (.query s))
    (hf : ∀ value now, Within P (f (value, now))) : Within P (queryAt s >>= f) :=
  confined_bind_iff.mpr (confined_queryAt.mpr ⟨hs, hf, fun _ => trivial⟩)

theorem confined_last_query (hs : P (.query s)) : Within P (query s) :=
  confined_query.mpr ⟨hs, fun _ => trivial, fun _ => trivial⟩

variable {β : Type}

theorem confined_attempt_bind {p : Handler α} {f : Except Failure α → Handler β} (hp : Within P p)
    (hf : ∀ outcome, Within P (f outcome)) : Within P (p.attempt >>= f) :=
  Within.bind (confined_attempt.mpr hp) hf

variable {f : α → Handler β}

theorem confined_ofOutcome_bind {outcome : Except Failure α} (hf : ∀ a, Within P (f a)) :
    Within P (ofOutcome outcome >>= f) :=
  Within.bind (confined_ofOutcome.mpr trivial) hf

theorem confined_orFail_bind {error : Failure} {value : Option α} (hf : ∀ a, Within P (f a)) :
    Within P (orFail error value >>= f) :=
  confined_bind_iff.mpr (confined_orFail.mpr ⟨fun a _ => hf a, fun _ => trivial⟩)

variable (hfind : ∀ jobId eventKey, P (.query (.findEvent jobId eventKey)))
  (hcreate : ∀ event, P (.query (.createEvent event)))

include hfind hcreate

theorem confined_insertAiRunnerEvent (event : RunnerEvent) :
    Within P (insertAiRunnerEvent event) := by
  refine confined_attempt_bind (confined_last_query (hcreate event)) fun outcome => ?_
  cases outcome with
  | ok record => trivial
  | error e =>
    refine confined_ite.mpr ⟨fun _ => ?_, fun _ => trivial⟩
    exact confined_query_bind (hfind _ _) fun _ => confined_orFail_bind fun _ => trivial

theorem confined_createAiRunnerEvent (jobId eventKey eventType : String)
    (approvalId : Option String) :
    Within P (createAiRunnerEvent jobId eventKey eventType approvalId) := by
  refine confined_query_bind (hfind _ _) fun existing => ?_
  cases existing with
  | some record => trivial
  | none => exact confined_insertAiRunnerEvent hfind hcreate _

theorem confined_event_bind {jobId eventKey eventType : String} {approvalId : Option String}
    {f : RunnerEvent × Bool → Handler α} (hf : ∀ event, Within P (f event)) :
    Within P (createAiRunnerEvent jobId eventKey eventType approvalId >>= f) :=
  (confined_createAiRunnerEvent hfind hcreate _ _ _ _).bind hf

end Parts

variable {P : Op → Prop}

theorem confined_linkAiRunnerEvent
    (hlink : ∀ jobId eventKey approvalId, P (.query (.linkEvent jobId eventKey approvalId)))
    (event : RunnerEvent) (approvalId : String) : Within P (linkAiRunnerEvent event approvalId) :=
  confined_attempt_bind (confined_last_query (hlink _ _ _)) fun _ => trivial

/-! ## Handlers -/

-- the values of a request are not looked into
attribute [local irreducible] stringValue

variable (api : Api)

theorem confined_claimAiRunnerJobLease (jobId runnerId : String) (now : Timestamp) :
    Within acquireFootprint (claimAiRunnerJobLease api jobId runnerId now) := by
  refine confined_bind_iff.mpr ⟨trivial, fun leaseId => ?_⟩
  refine confined_query_bind trivial fun count => confined_query_bind trivial fun record => ?_
  refine confined_ite.mpr ⟨fun _ => trivial, fun _ => ?_⟩
  cases record with
  | none => trivial
  | some job => exact confined_event_bind (fun _ _ => trivial) (fun _ => trivial) fun _ => trivial

theorem confined_acquireAiRunnerJobLease (jobId : String) (runnerId : Option String) :
    Within acquireFootprint (acquireAiRunnerJobLease api jobId runnerId) := by
  refine confined_orFail_bind fun runnerId => confined_queryAt_bind trivial fun existing now => ?_
  cases existing with
  | none => trivial
  | some existing =>
    dsimp only
    cases leaseVerdict existing runnerId now with
    | some summary => trivial
    | none =>
      exact (confined_claimAiRunnerJobLease _ _ _ _).bind fun _ => trivial

theorem confined_heartbeatAiRunnerJobLease (jobId leaseId : String) (runnerId : Option String) :
    Within heartbeatFootprint (heartbeatAiRunnerJobLease api jobId leaseId runnerId) := by
  refine confined_orFail_bind fun leaseId => confined_orFail_bind fun runnerId => ?_
  refine confined_bind_iff.mpr ⟨trivial, fun now => ?_⟩
  refine confined_query_bind trivial fun count => confined_query_bind trivial fun record => ?_
  cases record with
  | none => trivial
  | some record => exact confined_ite.mpr ⟨fun _ => trivial, fun _ => trivial⟩

theorem confined_releaseAiRunnerJobLease (jobId leaseId : String) (runnerId : Option String) :
    Within releaseFootprint (releaseAiRunnerJobLease jobId leaseId runnerId) := by
  refine confined_orFail_bind fun leaseId => confined_orFail_bind fun runnerId => ?_
  refine confined_query_bind trivial fun existing => ?_
  cases existing with
  | none => trivial
  | some existing =>
    refine confined_query_bind trivial fun count => confined_query_bind trivial fun record => ?_
    refine confined_ite.mpr ⟨fun _ => trivial, fun _ => ?_⟩
    refine confined_attempt_bind ?_ fun _ => trivial
    exact confined_createAiRunnerEvent (fun _ _ => trivial) (fun _ => trivial) _ _ _ _

theorem confined_reconcileJobs (now : Timestamp) (jobs : List Job) :
    Within (expiryFootprint now) (reconcileJobs now jobs) := by
  induction jobs with
  | nil => trivial
  | cons job jobs ih =>
    refine Within.bind ?_ fun _ => ih
    rw [reconcileExpiredJob]
    cases stringValue job.leaseId with
    | none => trivial
    | some leaseId =>
      refine confined_attempt_bind ?_ fun _ => confined_query_bind rfl fun _ => trivial
      exact confined_createAiRunnerEvent (fun _ _ => trivial) (fun _ => trivial) _ _ _ _

theorem confined_reconcile : Within reconcileFootprint reconcileExpiredAiRunnerJobLeases := by
  have hexpiry : ∀ now op, expiryFootprint now op → reconcileFootprint op := by
    intro now op hop
    unfold expiryFootprint at hop
    split at hop <;> trivial
  refine confined_bind_iff.mpr ⟨trivial, fun now => confined_query_bind trivial fun expired => ?_⟩
  exact (confined_reconcileJobs now expired).mono (hexpiry now) fun _ _ => trivial

theorem confined_createAiRunnerJob (input : JobInput) :
    Within createJobFootprint (createAiRunnerJob input) := by
  refine confined_bind_iff.mpr ⟨trivial, fun id => confined_query_bind rfl fun job => ?_⟩
  refine confined_attempt_bind ?_ fun outcome => ?_
  · refine confined_bind_iff.mpr ⟨trivial, fun attached => confined_ofOutcome_bind fun _ => ?_⟩
    refine confined_query_bind trivial fun _ => confined_bind_iff.mpr ⟨trivial, fun response => ?_⟩
    exact confined_ofOutcome_bind fun _ => confined_last_query trivial
  · cases outcome with
    | ok job => trivial
    | error e => exact confined_attempt_bind (confined_last_query trivial) fun _ => trivial

theorem confined_pruneCommandOutputDeltaEvents (jobId approvalId : String) :
    Within eventFootprint (pruneCommandOutputDeltaEvents api jobId approvalId) := by
  refine confined_query_bind trivial fun records => confined_bind_iff.mpr ⟨trivial, fun _ => ?_⟩
  refine confined_ite.mpr ⟨fun _ => trivial,
    fun _ => confined_ite.mpr ⟨fun _ => trivial, fun _ => ?_⟩⟩
  exact confined_attempt_bind (confined_last_query trivial) fun _ => trivial

theorem confined_appendAiRunnerEventFromCallback (jobId : String) (input : EventInput) :
    Within eventFootprint (appendAiRunnerEventFromCallback api jobId input) := by
  refine confined_queryAt_bind trivial fun job now => ?_
  cases job with
  | none => trivial
  | some job =>
    refine confined_ofOutcome_bind fun _ => ?_
    refine confined_event_bind (fun _ _ => trivial) (fun _ => trivial) fun event => ?_
    refine confined_ite.mpr ⟨fun _ => ?_, fun _ => trivial⟩
    cases prunedApproval input with
    | none => trivial
    | some approvalId =>
      exact (confined_pruneCommandOutputDeltaEvents api jobId approvalId).bind fun _ => trivial

theorem confined_updateAiRunnerJobStatusFromCallback (jobId : String) (input : StatusInput) :
    Within statusFootprint (updateAiRunnerJobStatusFromCallback api jobId input) := by
  refine confined_queryAt_bind trivial fun existing now => ?_
  cases existing with
  | none => trivial
  | some existing =>
    refine confined_ofOutcome_bind fun _ => ?_
    refine confined_event_bind (fun _ _ => trivial) (fun _ => trivial) fun event => ?_
    refine confined_ite.mpr ⟨fun _ => trivial, fun _ => ?_⟩
    exact confined_query_bind trivial fun _ => trivial

theorem settledStatus_cases (approval : CommandApproval) :
    settledStatus approval = .denied ∨ settledStatus approval = .failed := by
  rw [settledStatus]
  split
  · exact .inr rfl
  · exact .inl rfl

theorem confined_settleCommandApprovals (userId : String) (approvals : List CommandApproval) :
    Within stopFootprint (settleCommandApprovals userId approvals) := by
  induction approvals with
  | nil => trivial
  | cons approval approvals ih =>
    refine confined_query_bind ?_ fun _ => ih
    exact (settledStatus_cases approval).imp (congrArg some) (congrArg some)

variable (context : Context)

theorem confined_stopAiRunnerJob (jobId : String) :
    Within stopFootprint (stopAiRunnerJob context jobId) := by
  refine confined_queryAt_bind trivial fun existing now => ?_
  cases existing with
  | none => trivial
  | some existing =>
    refine confined_ite.mpr ⟨fun _ => trivial, fun _ => ?_⟩
    refine confined_query_bind trivial fun _ => confined_query_bind trivial fun jobAfterStop => ?_
    cases jobAfterStop with
    | none => trivial
    | some jobAfterStop =>
      refine confined_attempt_bind
        (confined_createAiRunnerEvent (fun _ _ => trivial) (fun _ => trivial) _ _ _ _) fun _ => ?_
      refine Within.then (confined_query_bind trivial fun approvals =>
        confined_settleCommandApprovals _ approvals) (fun _ => trivial) fun _ => ?_
      refine confined_bind_iff.mpr ⟨trivial, fun stopped => ?_⟩
      exact confined_query_bind trivial fun _ => confined_last_query trivial

theorem confined_createCommandApproval (job : Job) (jobId command : String) (turnIndex : ℕ)
    (event : RunnerEvent) (now : Timestamp) :
    Within createApprovalFootprint
      (createCommandApproval job jobId command turnIndex event now) := by
  refine confined_bind_iff.mpr ⟨trivial, fun id => confined_query_bind rfl fun record => ?_⟩
  refine (confined_linkAiRunnerEvent (fun _ _ _ => trivial) _ _).bind fun _ => ?_
  cases job.conversationId with
  | none => trivial
  | some conversationId =>
    refine confined_bind_iff.mpr ⟨trivial, fun message => confined_ofOutcome_bind fun stored => ?_⟩
    exact confined_ite.mpr ⟨fun _ => confined_last_query rfl, fun _ => trivial⟩

theorem confined_createAiRunnerCommandApproval (jobId : String) (input : ApprovalInput) :
    Within createApprovalFootprint (createAiRunnerCommandApprovalFromCallback jobId input) := by
  refine confined_queryAt_bind trivial fun job now => ?_
  cases job with
  | none => trivial
  | some job =>
    refine confined_ofOutcome_bind fun _ => confined_ofOutcome_bind fun proposal => ?_
    refine confined_event_bind (fun _ _ => trivial) (fun _ => trivial) fun event => ?_
    refine Within.bind ?_ fun existing => ?_
    · rw [findApprovalOfEvent]
      cases event.1.commandApprovalId with
      | none => trivial
      | some approvalId =>
        exact confined_ite.mpr ⟨fun _ => trivial, fun _ => confined_last_query trivial⟩
    · cases existing with
      | some existing => trivial
      | none =>
        refine confined_queryAt_bind trivial fun existing now => ?_
        cases existing with
        | some existing =>
          exact (confined_linkAiRunnerEvent (fun _ _ _ => trivial) _ _).bind fun _ => trivial
        | none =>
          exact (confined_createCommandApproval _ _ _ _ _ _).bind fun _ => trivial

theorem confined_getAiRunnerCommandApproval (jobId approvalId : String) :
    Within getApprovalFootprint (getAiRunnerCommandApprovalFromCallback jobId approvalId) := by
  refine confined_queryAt_bind trivial fun record now => ?_
  cases record with
  | none => trivial
  | some record =>
    refine confined_ite.mpr ⟨fun _ => ?_, fun _ => trivial⟩
    exact confined_query_bind rfl fun _ => trivial

theorem executionStatus_cases (js : Runtime) (input : ExecutionInput) :
    executionStatus js input = .executing ∨ executionStatus js input = .executed ∨
      executionStatus js input = .failed := by
  rw [executionStatus]
  split
  · assumption
  · exact .inr (.inl rfl)

theorem confined_updateAiRunnerCommandApprovalExecution (jobId approvalId : String)
    (input : ExecutionInput) :
    Within resultFootprint
      (updateAiRunnerCommandApprovalExecutionFromCallback api jobId approvalId input) := by
  refine confined_query_bind trivial fun record => ?_
  cases record with
  | none => trivial
  | some record =>
    refine confined_queryAt_bind trivial fun job now => ?_
    cases job with
    | none => trivial
    | some job =>
      refine confined_ofOutcome_bind fun _ => ?_
      refine confined_event_bind (fun _ _ => trivial) (fun _ => trivial) fun event => ?_
      refine confined_ite.mpr ⟨fun _ => confined_query_bind ?_ fun _ => trivial, fun _ => trivial⟩
      exact (executionStatus_cases api.js input).imp (congrArg some)
        (Or.imp (congrArg some) (congrArg some))

variable (approvalId : String)

theorem confined_approveAiRunnerCommandApproval :
    Within (approveFootprint approvalId) (approveAiRunnerCommandApproval context approvalId) := by
  refine confined_query_bind trivial fun record => ?_
  cases record with
  | none => trivial
  | some record =>
    refine confined_ite.mpr ⟨fun _ => ?_, fun _ => trivial⟩
    exact confined_query_bind ⟨rfl, rfl⟩ fun _ => trivial

theorem confined_denyAiRunnerCommandApproval :
    Within denyFootprint (denyAiRunnerCommandApproval context approvalId) := by
  have hstop : ∀ op, stopFootprint op → denyFootprint op := by
    intro op hop
    unfold denyFootprint
    split
    · trivial
    · exact hop
  refine confined_query_bind trivial fun record => ?_
  cases record with
  | none => trivial
  | some record =>
    refine confined_ite.mpr ⟨fun _ => ?_, fun _ => trivial⟩
    refine confined_query_bind (.inl rfl) fun updated => confined_attempt_bind ?_ fun _ => trivial
    exact (confined_stopAiRunnerJob context updated.jobId).mono hstop fun _ _ => trivial

theorem confined_denyAndUseDesktopControl :
    Within desktopFootprint
      (denyAiRunnerCommandApprovalAndUseDesktopControl context approvalId) := by
  refine confined_query_bind trivial fun record => ?_
  cases record with
  | none => trivial
  | some record =>
    refine confined_query_bind trivial fun sourceJob => ?_
    cases sourceJob with
    | none => trivial
    | some sourceJob =>
      refine confined_ite.mpr ⟨fun _ => ?_, fun _ => trivial⟩
      refine confined_query_bind rfl fun _ => confined_query_bind trivial fun updatedJob => ?_
      refine confined_attempt_bind ?_ fun _ => trivial
      exact confined_createAiRunnerEvent (fun _ _ => trivial) (fun _ => trivial) _ _ _ _

/-! ## Calls -/

theorem confined_serve (request : Callback) : Within request.footprint (request.serve api) := by
  cases request with
  | acquireLease jobId runnerId => exact confined_acquireAiRunnerJobLease api jobId runnerId
  | heartbeatLease jobId leaseId runnerId =>
    exact confined_heartbeatAiRunnerJobLease api jobId leaseId runnerId
  | releaseLease jobId leaseId runnerId =>
    exact confined_releaseAiRunnerJobLease jobId leaseId runnerId
  | event jobId input => exact confined_appendAiRunnerEventFromCallback api jobId input
  | status jobId input => exact confined_updateAiRunnerJobStatusFromCallback api jobId input
  | createApproval jobId input => exact confined_createAiRunnerCommandApproval jobId input
  | getApproval jobId approvalId => exact confined_getAiRunnerCommandApproval jobId approvalId
  | approvalResult jobId approvalId input =>
    exact confined_updateAiRunnerCommandApprovalExecution api jobId approvalId input

theorem within_respond {request : Callback} (hrespond : ∀ reply, P (.respond request reply))
    (reply : Option request.Reply) : Within P (match reply with
      | none => pure ()
      | some reply => do
          let _ : Bool ← ask (.respond request reply)
          pure () : Handler Unit) := by
  cases reply with
  | none => trivial
  | some reply => exact confined_bind_iff.mpr ⟨hrespond reply, fun _ => trivial⟩

end Talos.CommandCenter
