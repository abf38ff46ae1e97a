import Talos.CommandCenter.Footprint
import Talos.Interactive.Alone
import Talos.Transition.Run

/-!
# The life of a command approval

Calls of the API that are served one after the other, each with the table for itself. An
approval is approved only while it is pending and has not expired, it is executed only
after it was approved, and it stays as it was decided or as it ended.

Every call keeps to this but two. An approval that has expired and was not polled since
is still pending, and can be approved; and the result of an execution is stored whatever
became of the approval in the meantime.
-/

namespace Talos.CommandCenter

open Interactive Program Relational Transition

/-! ## The rules of the life -/

def CommandApprovalStatus.isFinal : CommandApprovalStatus → Bool
  | .denied | .expired | .desktopControlRequested | .executed | .failed => true
  | .pending | .approved | .executing | .policyBlocked => false

/-- The status may follow what is stored, at the time. -/
structure Follows (now : Timestamp) (old : CommandApproval) (status : CommandApprovalStatus) :
    Prop where
  approved : status = .approved → old.status = .approved ∨
    old.status = .pending ∧ old.expiresAt.all (fun expiresAt => now < expiresAt) = true
  executed : status = .executing ∨ status = .executed →
    old.status = status ∨ old.status = .approved ∨ old.status = .executing
  final : old.status.isFinal = true → status = old.status

/-- Every approval follows the rules from one state of the tables to the next. -/
structure Lifecycle (now : Timestamp) (db db' : Database) : Prop where
  kept : ∀ id old, db.approvals.get? id = some old →
    ∃ new, db'.approvals.get? id = some new ∧ Follows now old new.status
  begun : ∀ id new, db.approvals.get? id = none → db'.approvals.get? id = some new →
    new.status = .pending

variable (now : Timestamp)

theorem follows_self (old : CommandApproval) : Follows now old old.status :=
  ⟨.inl, fun _ => .inl rfl, fun _ => rfl⟩

variable {db : Database}

theorem lifecycle_of_approvals_eq {now : Timestamp} {db' : Database}
    (h : db'.approvals = db.approvals) : Lifecycle now db db' := by
  refine ⟨fun id old hold => ⟨old, h ▸ hold, follows_self now old⟩, fun id new hnone hnew => ?_⟩
  rw [h, hnone] at hnew
  cases hnew

@[simp] theorem lifecycle_refl (db : Database) : Lifecycle now db db :=
  lifecycle_of_approvals_eq rfl

/-! ## Statements -/

def Statement.sparesApprovals : Statement → Bool
  | .createApproval _ | .updateApproval .. => false
  | _ => true

variable {s : Statement}

theorem execute_approvals (hs : s.sparesApprovals = true) (db : Database) :
    (db.execute s).2.approvals = db.approvals := by
  cases s with
  | createApproval approval => cases hs
  | updateApproval id data => cases hs
  | createJob | updateJob | createEvent | linkEvent =>
    simp only [Database.execute]
    split <;> rfl
  | _ => rfl

def SparesApprovals : Op → Prop
  | .query s => s.sparesApprovals = true
  | .clock | .uuid | .cuid | .appendMessage _ | .outputLengths | .attachSecrets _
  | .startRunner _ | .stopRunner _ | .respond .. => True
  | _ => False

variable {op : Op}

theorem perform_approvals (hop : SparesApprovals op) (o : Outside) (db : Database) :
    (db.perform o op).2.approvals = db.approvals := by
  cases op with
  | query s =>
    simp only [Database.perform]
    split
    · rfl
    · exact execute_approvals hop db
  | _ => rfl

variable {old : CommandApproval}

theorem get?_setApprovalStatus {id : String} (hold : db.approvals.get? id = some old)
    (status : CommandApprovalStatus) (decidedBy : Option String) (k : String) :
    (db.execute (setApprovalStatus id status decidedBy)).2.approvals.get? k =
      (db.approvals.get? k).map fun row =>
        if row.id = id then (ApprovalData.mk (some status) decidedBy).assignment.apply row
        else row := by
  simp only [setApprovalStatus, Database.execute, hold]
  rw [Keyed.get?_update]
  simp

theorem lifecycle_setApprovalStatus_iff {now : Timestamp} {id : String}
    (hold : db.approvals.get? id = some old) (status : CommandApprovalStatus)
    (decidedBy : Option String) :
    Lifecycle now db (db.execute (setApprovalStatus id status decidedBy)).2 ↔
      Follows now old status := by
  constructor
  · intro h
    obtain ⟨new, hnew, hfollows⟩ := h.kept id old hold
    rw [get?_setApprovalStatus hold, hold, Option.map_some, if_pos (Keyed.key_of_get? hold)] at hnew
    cases hnew
    exact hfollows
  · intro h
    refine ⟨fun k row hrow => ?_, fun k new hnone hnew => ?_⟩
    · refine ⟨_, by rw [get?_setApprovalStatus hold, hrow, Option.map_some], ?_⟩
      split
      next hid =>
        have hsame : k = id := (Keyed.key_of_get? hrow).symm.trans hid
        rw [hsame, hold] at hrow
        cases hrow
        exact h
      next => exact follows_self now row
    · rw [get?_setApprovalStatus hold, hnone] at hnew
      cases hnew

theorem lifecycle_createApproval (db : Database) {approval : CommandApproval}
    (hpending : approval.status = .pending) :
    Lifecycle now db (db.execute (.createApproval approval)).2 := by
  simp only [Database.execute]
  split
  · exact lifecycle_refl now db
  · cases hinsert : db.approvals.insertAll [approval] with
    | none => exact lifecycle_refl now db
    | some approvals =>
      have hget := Keyed.get?_insertAll hinsert
      refine ⟨fun id old hold => ⟨old, ?_, follows_self now old⟩, fun id new hnone hnew => ?_⟩
      · rw [hget, hold, Option.some_or]
      · rw [hget, hnone, Option.none_or] at hnew
        split at hnew <;> cases hnew
        exact hpending

theorem lifecycle_keepStatus (db : Database) (id : String) :
    Lifecycle now db (db.execute (.updateApproval id ⟨none, none⟩)).2 := by
  simp only [Database.execute]
  split
  · exact lifecycle_refl now db
  · refine ⟨fun k old hold => ?_, fun k new hnone hnew => ?_⟩
    · refine ⟨_, by rw [Keyed.get?_update, hold, Option.map_some], ?_⟩
      split <;> exact follows_self now old
    · rw [Keyed.get?_update, hnone] at hnew
      cases hnew

/-! ## Calls -/

/-- Every operation of the program keeps to the rules at its time. -/
abbrev Observed {α : Type} (os : List Outside) (db : Database) (p : Handler α)
    (R : List Outside → Database → Except Failure α → Prop) : Prop :=
  Alone (fun o db => db.perform o) (fun o db db' => Lifecycle o.now db db') os db p R

abbrev Keeps {α : Type} (os : List Outside) (db : Database) (p : Handler α) : Prop :=
  Observed os db p fun _ _ _ => True

variable {os : List Outside} {db : Database} {α β : Type} {p : Handler α} {f : α → Handler β}

section Rules

theorem forall_next_congr {P Q : Outside → List Outside → Prop}
    (h : ∀ o rest, P o rest ↔ Q o rest) :
    (∀ o rest, os = o :: rest → P o rest) ↔ ∀ o rest, os = o :: rest → Q o rest :=
  forall_congr' fun o => forall_congr' fun rest => imp_congr_right fun _ => h o rest

@[simp] theorem observed_queryAt
    {R : List Outside → Database → Except Failure (no_index s.Result × Timestamp) → Prop} :
    @Observed (no_index s.Result × Timestamp) os db (queryAt s) R ↔ ∀ o rest, os = o :: rest →
      (∀ e, o.fault = some e → R rest db (.error e)) ∧
        (o.fault = none → Lifecycle o.now db (db.execute s).2 ∧
          R rest (db.execute s).2 ((db.execute s).1.map fun value => (value, o.now))) := by
  rw [Observed, queryAt, alone_bind_iff, ask, alone_perform]
  refine forall_next_congr fun o rest => ?_
  simp only [Database.perform]
  cases hfault : o.fault with
  | some e => simp
  | none => cases hresult : (db.execute s).1 <;> simp [Except.map]

@[simp] theorem observed_query
    {R : List Outside → Database → Except Failure (no_index s.Result) → Prop} :
    @Observed (no_index s.Result) os db (query s) R ↔ ∀ o rest, os = o :: rest →
      (∀ e, o.fault = some e → R rest db (.error e)) ∧
        (o.fault = none → Lifecycle o.now db (db.execute s).2 ∧
          R rest (db.execute s).2 (db.execute s).1) := by
  rw [Observed, query, alone_bind_iff]
  refine observed_queryAt.trans (forall_next_congr fun o rest => ?_)
  cases hresult : (db.execute s).1 <;> simp [Except.map]

theorem keeps_pure {a : α} : Keeps os db (pure a) := alone_pure.mpr trivial

theorem Observed.bind {R : List Outside → Database → Except Failure α → Prop}
    (hp : Observed os db p R) (hf : ∀ os db a, R os db (.ok a) → Keeps os db (f a)) :
    Keeps os db (p >>= f) := by
  refine alone_bind_iff.mpr (hp.mono fun os db outcome h => ?_)
  cases outcome with
  | ok a => exact hf os db a h
  | error e => trivial

theorem keeps_query {f : s.Result → Handler α} (hs : ∀ now, Lifecycle now db (db.execute s).2)
    (hf : ∀ rest value, Keeps rest (db.execute s).2 (f value)) : Keeps os db (query s >>= f) := by
  refine alone_bind_iff.mpr (observed_query.mpr fun o rest _ => ⟨fun _ _ => trivial, fun _ => ?_⟩)
  refine ⟨hs o.now, ?_⟩
  cases (db.execute s).1 with
  | ok value => exact hf rest value
  | error e => trivial

variable {value : s.Result}

theorem keeps_readAt_iff {f : s.Result × Timestamp → Handler α}
    (hread : db.execute s = (.ok value, db)) : Keeps os db (queryAt s >>= f) ↔
      ∀ o rest, os = o :: rest → o.fault = none → Keeps rest db (f (value, o.now)) := by
  refine alone_bind_iff.trans (observed_queryAt.trans (forall_next_congr fun o rest => ?_))
  rw [hread]
  exact ⟨fun h hfault => (h.2 hfault).2,
    fun h => ⟨fun _ _ => trivial, fun hfault => ⟨lifecycle_refl _ _, h hfault⟩⟩⟩

theorem keeps_read_iff {f : s.Result → Handler α} (hread : db.execute s = (.ok value, db)) :
    Keeps os db (query s >>= f) ↔
      ∀ o rest, os = o :: rest → o.fault = none → Keeps rest db (f value) := by
  rw [query, bind_bind]
  exact keeps_readAt_iff hread

theorem keeps_set_iff {id : String} (hold : db.approvals.get? id = some old)
    {status : CommandApprovalStatus} {decidedBy : Option String} {f : CommandApproval → Handler α}
    (hf : ∀ os db updated, Keeps os db (f updated)) :
    Keeps os db (query (setApprovalStatus id status decidedBy) >>= f) ↔
      ∀ o rest, os = o :: rest → o.fault = none → Follows o.now old status := by
  refine alone_bind_iff.trans (observed_query.trans (forall_next_congr fun o rest => ?_))
  rw [lifecycle_setApprovalStatus_iff hold]
  refine ⟨fun h hfault => (h.2 hfault).1,
    fun h => ⟨fun _ _ => trivial, fun hfault => ⟨h hfault, ?_⟩⟩⟩
  cases (db.execute (setApprovalStatus id status decidedBy)).1 with
  | error e => trivial
  | ok updated => exact hf _ _ updated

theorem keeps_of_spares (hp : Within SparesApprovals p) : Keeps os db p := by
  refine (hp.alone (J := fun _ => True) (fun o db _ _ hop => ?_) trivial).mono
    fun _ _ _ _ => trivial
  exact ⟨lifecycle_of_approvals_eq (perform_approvals hop o db), trivial⟩

theorem keeps_spares_bind (hp : Within SparesApprovals p) (hf : ∀ os db a, Keeps os db (f a)) :
    Keeps os db (p >>= f) :=
  (keeps_of_spares hp).bind fun os db a _ => hf os db a

end Rules

/-! ## Calls that leave the approvals alone -/

section Handlers

attribute [local simp] SparesApprovals Statement.sparesApprovals

-- the values of a request are not looked into
attribute [local irreducible] stringValue

theorem spares_createAiRunnerEvent (jobId eventKey eventType : String)
    (approvalId : Option String) :
    Within SparesApprovals (createAiRunnerEvent jobId eventKey eventType approvalId) :=
  confined_createAiRunnerEvent (fun _ _ => rfl) (fun _ => rfl) _ _ _ _

theorem spares_linkAiRunnerEvent (event : RunnerEvent) (approvalId : String) :
    Within SparesApprovals (linkAiRunnerEvent event approvalId) :=
  confined_linkAiRunnerEvent (fun _ _ _ => rfl) _ _

theorem spares_reconcile (hop : reconcileFootprint op) : SparesApprovals op := by
  unfold reconcileFootprint at hop
  split at hop <;> trivial

theorem spares_createJob (hop : createJobFootprint op) : SparesApprovals op := by
  unfold createJobFootprint at hop
  split at hop <;> trivial

theorem keeps_of_footprint {P : Op → Prop} (hp : Within P p)
    (hP : ∀ {op}, P op → SparesApprovals op) : Keeps os db p :=
  keeps_of_spares (hp.mono (fun _ => hP) fun _ _ => trivial)

/-! ## Stopping -/

theorem follows_settledStatus {approval : CommandApproval} (hopen : approval.isOpen = true)
    (now : Timestamp) : Follows now approval (settledStatus approval) := by
  simp only [CommandApproval.isOpen, Bool.or_eq_true, decide_eq_true_eq] at hopen
  rcases hopen with (hpending | hexecuting) | hexecuting
  all_goals constructor <;> simp_all [settledStatus, CommandApprovalStatus.isFinal]

theorem keeps_settleCommandApprovals (userId : String) {approvals : List CommandApproval}
    (hids : (approvals.map CommandApproval.id).Nodup)
    (hopen : ∀ approval ∈ approvals, approval.isOpen = true)
    (hstored : ∀ approval ∈ approvals, db.approvals.get? approval.id = some approval) :
    Keeps os db (settleCommandApprovals userId approvals) := by
  induction approvals generalizing os db with
  | nil => exact keeps_pure
  | cons approval approvals ih =>
    have hhead := hstored approval List.mem_cons_self
    rw [List.map_cons, List.nodup_cons] at hids
    have hsettled := follows_settledStatus (hopen approval List.mem_cons_self)
    refine keeps_query
      (fun now => (lifecycle_setApprovalStatus_iff hhead _ _).mpr (hsettled now)) ?_
    intro rest _
    refine ih hids.2 (fun other hother => hopen other (List.mem_cons_of_mem _ hother)) ?_
    intro other hother
    have hne : other.id ≠ approval.id := fun heq =>
      hids.1 (heq ▸ List.mem_map_of_mem hother)
    rw [get?_setApprovalStatus hhead, hstored other (List.mem_cons_of_mem _ hother),
      Option.map_some, if_neg hne]

theorem keeps_settleOpenCommandApprovals (job : Job) (userId : String) :
    Keeps os db (settleOpenCommandApprovalsForStoppedJob job userId) := by
  refine (keeps_read_iff rfl).mpr fun o rest _ _ => keeps_settleCommandApprovals userId ?_ ?_ ?_
  · exact db.approvals.nodup.sublist (List.filter_sublist.map _)
  · intro approval happroval
    have hmem := (List.mem_filter.mp happroval).2
    simp only [Bool.and_eq_true] at hmem
    exact hmem.2
  · intro approval happroval
    exact Keyed.get?_of_mem (List.mem_filter.mp happroval).1

variable (context : Context)

theorem keeps_stopAiRunnerJob (jobId : String) : Keeps os db (stopAiRunnerJob context jobId) := by
  refine (keeps_readAt_iff rfl).mpr fun o os _ _ => ?_
  cases (db.jobs.get? jobId).filter (·.isOf context.organizationId context.userId) with
  | none => exact keeps_pure
  | some existing =>
    refine alone_ite.mpr ⟨fun _ => keeps_pure, fun _ => ?_⟩
    refine keeps_spares_bind (by simp) fun os db _ => ?_
    refine keeps_spares_bind (by simp) fun os db jobAfterStop => ?_
    cases jobAfterStop with
    | none => exact keeps_pure
    | some jobAfterStop =>
      refine keeps_spares_bind
        (confined_attempt.mpr (spares_createAiRunnerEvent _ _ _ _)) fun os db _ => ?_
      refine (keeps_settleOpenCommandApprovals _ _).bind fun os db _ _ => ?_
      refine keeps_of_spares (confined_bind_iff.mpr ⟨trivial, fun _ => ?_⟩)
      exact confined_query_bind rfl fun _ => confined_last_query rfl

/-! ## Decisions -/

variable {status : CommandApprovalStatus} {record : CommandApproval}

theorem follows_decision (hundecided : record.isUndecided = true) (now : Timestamp)
    (hstatus : status = .denied ∨ status = .desktopControlRequested) :
    Follows now record status := by
  simp only [CommandApproval.isUndecided, Bool.or_eq_true, decide_eq_true_eq] at hundecided
  rcases hundecided with hpending | happroved <;> rcases hstatus with rfl | rfl
  all_goals constructor <;> simp_all [CommandApprovalStatus.isFinal]

variable (approvalId : String)

theorem keeps_denyAiRunnerCommandApproval :
    Keeps os db (denyAiRunnerCommandApproval context approvalId) := by
  refine (keeps_read_iff rfl).mpr fun o rest _ _ => ?_
  cases hrecord : (db.approvals.get? approvalId).filter
      (·.isOf context.organizationId context.userId) with
  | none => exact keeps_pure
  | some record =>
    have hstored := (Option.filter_eq_some_iff.mp hrecord).1
    refine alone_ite.mpr ⟨fun hundecided => ?_, fun _ => keeps_pure⟩
    refine (keeps_set_iff hstored fun os db updated => ?_).mpr
      fun o rest _ _ => follows_decision hundecided o.now (.inl rfl)
    have hstop : Keeps os db (stopAiRunnerJob context updated.jobId).attempt :=
      alone_attempt.mpr (keeps_stopAiRunnerJob context updated.jobId)
    exact hstop.bind fun _ _ _ _ => keeps_pure

theorem keeps_denyAndUseDesktopControl :
    Keeps os db (denyAiRunnerCommandApprovalAndUseDesktopControl context approvalId) := by
  refine (keeps_read_iff rfl).mpr fun o rest _ _ => ?_
  cases hrecord : (db.approvals.get? approvalId).filter
      (·.isOf context.organizationId context.userId) with
  | none => exact keeps_pure
  | some record =>
    have hstored := (Option.filter_eq_some_iff.mp hrecord).1
    refine (keeps_read_iff rfl).mpr fun o rest _ _ => ?_
    cases (db.jobs.get? record.jobId).filter (·.isOf context.organizationId context.userId) with
    | none => exact keeps_pure
    | some sourceJob =>
      refine alone_ite.mpr ⟨fun hcondition => ?_, fun _ => keeps_pure⟩
      simp only [Bool.and_eq_true] at hcondition
      refine (keeps_set_iff hstored fun os db updated => ?_).mpr
        fun o rest _ _ => follows_decision hcondition.2 o.now (.inr rfl)
      refine keeps_of_spares (confined_query_bind rfl fun updatedJob => ?_)
      exact confined_attempt_bind (spares_createAiRunnerEvent _ _ _ _) fun _ => trivial

/-- The approval of the user is pending and the statements go through: then it is in time. -/
def ApprovedInTime (db : Database) (os : List Outside) (context : Context) (approvalId : String) :
    Prop :=
  ∀ read write rest record, os = read :: write :: rest → read.fault = none → write.fault = none →
    db.approvals.get? approvalId = some record →
    record.isOf context.organizationId context.userId = true → record.status = .pending →
    record.expiresAt.all (fun expiresAt => write.now < expiresAt) = true

theorem follows_approved_iff {now : Timestamp} (hpending : record.status = .pending) :
    Follows now record .approved ↔
      record.expiresAt.all (fun expiresAt => now < expiresAt) = true := by
  constructor
  · intro h
    rcases h.approved rfl with happroved | ⟨_, hintime⟩
    · exact nomatch hpending.symm.trans happroved
    · exact hintime
  · intro h
    refine ⟨fun _ => .inr ⟨hpending, h⟩, fun hother => ?_, fun hfinal => ?_⟩
    · rcases hother with hother | hother <;> cases hother
    · rw [hpending] at hfinal
      cases hfinal

theorem keeps_approve_iff : Keeps os db (approveAiRunnerCommandApproval context approvalId) ↔
      ApprovedInTime db os context approvalId := by
  refine (keeps_read_iff rfl).trans ?_
  cases hrecord : (db.approvals.get? approvalId).filter
      (·.isOf context.organizationId context.userId) with
  | none =>
    refine iff_of_true (fun _ _ _ _ => keeps_pure) ?_
    intro read write rest record _ _ _ hstored hof _
    rw [hstored, Option.filter_some, if_pos hof] at hrecord
    cases hrecord
  | some record =>
    obtain ⟨hstored, hof⟩ := Option.filter_eq_some_iff.mp hrecord
    by_cases hpending : record.status = .pending
    · simp only [if_pos hpending]
      constructor
      · rintro h read write rest record' rfl hread hwrite hstored' _ _
        cases hstored.symm.trans hstored'
        have hset := (keeps_set_iff hstored fun _ _ _ => keeps_pure).mp (h read _ rfl hread)
        exact (follows_approved_iff hpending).mp (hset write rest rfl hwrite)
      · rintro h read _ rfl hread
        refine (keeps_set_iff hstored fun _ _ _ => keeps_pure).mpr ?_
        rintro write rest rfl hwrite
        exact (follows_approved_iff hpending).mpr
          (h read write rest record rfl hread hwrite hstored hof hpending)
    · refine iff_of_true (fun _ _ _ _ => ?_) ?_
      · simp only [if_neg hpending]
        exact keeps_pure
      · intro read write rest record' _ _ _ hstored' _ hpending'
        cases hstored.symm.trans hstored'
        exact absurd hpending' hpending

/-! ## Polls and proposals -/

theorem keeps_getAiRunnerCommandApprovalFromCallback (jobId approvalId : String) :
    Keeps os db (getAiRunnerCommandApprovalFromCallback jobId approvalId) := by
  refine (keeps_readAt_iff rfl).mpr fun o rest _ _ => ?_
  cases hrecord : (db.approvals.get? approvalId).filter (·.jobId = jobId) with
  | none => exact keeps_pure
  | some record =>
    have hstored := (Option.filter_eq_some_iff.mp hrecord).1
    refine alone_ite.mpr ⟨fun hexpired => ?_, fun _ => keeps_pure⟩
    refine (keeps_set_iff hstored fun _ _ _ => keeps_pure).mpr ?_
    intro o rest _ _
    constructor <;> simp [hexpired.1, CommandApprovalStatus.isFinal]

theorem keeps_createCommandApproval (job : Job) (jobId command : String) (turnIndex : ℕ)
    (event : RunnerEvent) (now : Timestamp) :
    Keeps os db (createCommandApproval job jobId command turnIndex event now) := by
  refine keeps_spares_bind (by simp) fun os db id => ?_
  refine keeps_query (fun now => lifecycle_createApproval now db rfl) fun os record => ?_
  refine keeps_spares_bind (spares_linkAiRunnerEvent _ _) fun os db _ => ?_
  cases job.conversationId with
  | none => exact keeps_pure
  | some conversationId =>
    refine keeps_spares_bind (by simp) fun os db message => ?_
    refine keeps_spares_bind (by simp) fun os db message => ?_
    refine alone_ite.mpr ⟨fun _ => ?_, fun _ => keeps_pure⟩
    refine observed_query.mpr fun o rest _ => ⟨fun _ _ => trivial, fun _ => ?_⟩
    exact ⟨lifecycle_keepStatus o.now db record.id, trivial⟩

theorem spares_findApprovalOfEvent (jobId : String) (event : RunnerEvent × Bool) :
    Within SparesApprovals (findApprovalOfEvent jobId event) := by
  rw [findApprovalOfEvent]
  cases event.1.commandApprovalId with
  | none => trivial
  | some approvalId => exact confined_ite.mpr ⟨fun _ => trivial, fun _ => by simp⟩

theorem keeps_createAiRunnerCommandApproval (jobId : String) (input : ApprovalInput) :
    Keeps os db (createAiRunnerCommandApprovalFromCallback jobId input) := by
  refine (keeps_readAt_iff rfl).mpr fun o rest _ _ => ?_
  cases db.jobs.get? jobId with
  | none => exact keeps_pure
  | some job =>
    refine keeps_spares_bind (by simp) fun os db _ => ?_
    refine keeps_spares_bind (by simp) fun os db proposal => ?_
    refine keeps_spares_bind (spares_createAiRunnerEvent _ _ _ _) fun os db event => ?_
    refine keeps_spares_bind (spares_findApprovalOfEvent _ _) fun os db existing => ?_
    cases existing with
    | some existing => exact keeps_pure
    | none =>
      refine (keeps_readAt_iff rfl).mpr fun o rest _ _ => ?_
      dsimp only
      split
      next existing _ =>
        exact keeps_spares_bind (spares_linkAiRunnerEvent _ _) fun _ _ _ => keeps_pure
      next => exact (keeps_createCommandApproval _ _ _ _ _ _).bind fun _ _ _ _ => keeps_pure

/-! ## Results of executions -/

variable {event : RunnerEvent}

theorem observed_refindAiRunnerEvent (hnone : db.events.get? (event.jobId, event.eventKey) = none)
    (e : Failure) :
    Observed os db (refindAiRunnerEvent event e) fun _ _ outcome => ∃ e', outcome = .error e' := by
  refine alone_ite.mpr ⟨fun _ => ?_, fun _ => alone_fail.mpr ⟨e, rfl⟩⟩
  refine alone_bind_iff.mpr (observed_query.mpr fun o rest _ =>
    ⟨fun e' _ => ⟨e', rfl⟩, fun _ => ?_⟩)
  refine ⟨lifecycle_refl _ _, ?_⟩
  simp only [Database.execute, hnone]
  exact alone_fail.mpr ⟨e, rfl⟩

theorem keeps_insertAiRunnerEvent_iff {f : RunnerEvent × Bool → Handler α}
    {events : Keyed fun event : RunnerEvent => (event.jobId, event.eventKey)}
    (hnone : db.events.get? (event.jobId, event.eventKey) = none)
    (hinsert : db.events.insertAll [event] = some events) :
    Keeps os db (insertAiRunnerEvent event >>= f) ↔
      ∀ write rest, os = write :: rest → write.fault = none →
        Keeps rest { db with events := events } (f (event, true)) := by
  rw [insertAiRunnerEvent, bind_bind]
  refine alone_bind_iff.trans (alone_attempt.trans (observed_query.trans ?_))
  refine forall_next_congr fun write rest => ?_
  simp only [Database.execute, hinsert]
  constructor
  · intro h hwrite
    exact (h.2 hwrite).2
  · intro h
    refine ⟨fun e _ => ?_, fun hwrite => ⟨lifecycle_of_approvals_eq rfl, h hwrite⟩⟩
    exact (observed_refindAiRunnerEvent hnone e).bind fun _ _ _ h => nomatch h

theorem keeps_event_iff {jobId eventKey eventType : String} {approvalId : Option String}
    {f : RunnerEvent × Bool → Handler α} (hheld : ∀ rest event, Keeps rest db (f (event, false))) :
    Keeps os db (createAiRunnerEvent jobId eventKey eventType approvalId >>= f) ↔
      ∀ read write rest events, os = read :: write :: rest → read.fault = none →
        write.fault = none → db.events.get? (jobId, eventKey) = none →
        db.events.insertAll [⟨jobId, eventKey, eventType, approvalId⟩] = some events →
        Keeps rest { db with events := events }
          (f (⟨jobId, eventKey, eventType, approvalId⟩, true)) := by
  rw [createAiRunnerEvent, bind_bind]
  refine (keeps_read_iff rfl).trans ?_
  cases hget : db.events.get? (jobId, eventKey) with
  | some event =>
    exact iff_of_true (fun _ rest _ _ => hheld rest event) fun _ _ _ _ _ _ _ hnone => by cases hnone
  | none =>
    obtain ⟨events, hinsert⟩ := Keyed.exists_insertAll db.events
      ⟨jobId, eventKey, eventType, approvalId⟩ hget
    constructor
    · intro h read write rest events' hos hread hwrite _ hinsert'
      cases hinsert.symm.trans hinsert'
      exact (keeps_insertAiRunnerEvent_iff hget hinsert).mp (h read _ hos hread)
        write rest rfl hwrite
    · intro h read rest hos hread
      refine (keeps_insertAiRunnerEvent_iff hget hinsert).mpr ?_
      rintro write rest' rfl hwrite
      exact h read write rest' events hos hread hwrite rfl hinsert

/-- A result may be stored: the command was approved, or is being executed, or nothing
changes, or a command that was never executed fails. -/
def Executes (stored status : CommandApprovalStatus) : Prop :=
  stored = status ∨ stored = .approved ∨ stored = .executing ∨
    status = .failed ∧ stored.isFinal = false

instance (stored status : CommandApprovalStatus) : Decidable (Executes stored status) :=
  inferInstanceAs (Decidable (_ ∨ _))

variable (api : Api)

/-- The result is of the job, its lease is valid, its event is new and the statements go
through: then it may be stored. -/
def ResultInOrder (db : Database) (os : List Outside) (jobId approvalId : String)
    (input : ExecutionInput) : Prop :=
  ∀ readApproval readJob readEvent createEvent write rest record job,
    os = readApproval :: readJob :: readEvent :: createEvent :: write :: rest →
    (∀ o ∈ [readApproval, readJob, readEvent, createEvent, write], o.fault = none) →
    db.approvals.get? approvalId = some record → record.jobId = jobId →
    db.jobs.get? jobId = some job →
    assertCallbackLease job readJob.now input.toCallbackSource = .ok () →
    db.events.get? (jobId, resultEventKey api.js approvalId input) = none →
    Executes record.status (executionStatus api.js input)

theorem follows_iff_of_ne_approved {now : Timestamp} (hstatus : status ≠ .approved) :
    Follows now old status ↔ (status = .executing ∨ status = .executed →
        old.status = status ∨ old.status = .approved ∨ old.status = .executing) ∧
      (old.status.isFinal = true → status = old.status) :=
  ⟨fun h => ⟨h.executed, h.final⟩, fun h => ⟨fun heq => absurd heq hstatus, h.1, h.2⟩⟩

theorem follows_execution_iff {now : Timestamp}
    (hstatus : status = .executing ∨ status = .executed ∨ status = .failed) :
    Follows now record status ↔ Executes record.status status := by
  have hne : status ≠ .approved := by
    rcases hstatus with rfl | rfl | rfl <;> decide
  rw [follows_iff_of_ne_approved hne]
  generalize record.status = stored
  rcases hstatus with rfl | rfl | rfl <;> cases stored <;> decide

theorem keeps_storeResult_iff {approvalId : String}
    (hstored : db.approvals.get? approvalId = some record) (jobId eventKey : String)
    (hstatus : status = .executing ∨ status = .executed ∨ status = .failed) :
    Keeps os db (do
        let event ← createAiRunnerEvent jobId eventKey "command_result" (some approvalId)
        if event.2 then do
          let updated ← query (setApprovalStatus approvalId status none)
          pure (some updated)
        else pure (some record)) ↔
      ∀ readEvent createEvent write rest, os = readEvent :: createEvent :: write :: rest →
        readEvent.fault = none → createEvent.fault = none → write.fault = none →
        db.events.get? (jobId, eventKey) = none → Executes record.status status := by
  refine (keeps_event_iff ?_).trans ⟨?_, ?_⟩
  · exact fun _ _ => keeps_pure
  · rintro h readEvent createEvent write rest rfl hread hcreate hwrite hnone
    obtain ⟨events, hinsert⟩ := Keyed.exists_insertAll db.events
      ⟨jobId, eventKey, "command_result", some approvalId⟩ hnone
    have hstored' : ({ db with events := events } : Database).approvals.get? approvalId
        = some record := hstored
    have hset := (alone_ite.mp
      (h readEvent createEvent _ events rfl hread hcreate hnone hinsert)).1 rfl
    have hfollows := (keeps_set_iff hstored' fun _ _ _ => keeps_pure).mp hset write rest rfl hwrite
    exact (follows_execution_iff hstatus).mp hfollows
  · rintro h readEvent createEvent rest events rfl hread hcreate hnone _
    have hstored' : ({ db with events := events } : Database).approvals.get? approvalId
        = some record := hstored
    refine alone_ite.mpr ⟨fun _ => ?_, fun _ => keeps_pure⟩
    refine (keeps_set_iff hstored' fun _ _ _ => keeps_pure).mpr ?_
    rintro write rest rfl hwrite
    exact (follows_execution_iff hstatus).mpr
      (h readEvent createEvent write rest rfl hread hcreate hwrite hnone)

theorem keeps_result_iff (jobId approvalId : String) (input : ExecutionInput) :
    Keeps os db (updateAiRunnerCommandApprovalExecutionFromCallback api jobId approvalId input) ↔
      ResultInOrder api db os jobId approvalId input := by
  have hstatus := executionStatus_cases api.js input
  constructor
  · rintro h readApproval readJob readEvent createEvent write rest record job rfl hfaults hstored
      hjobId hjob hlease hnone
    simp only [List.forall_mem_cons] at hfaults
    obtain ⟨hfault, hfault', hread, hcreate, hwrite, _⟩ := hfaults
    have hrest := (keeps_read_iff rfl).mp h readApproval _ rfl hfault
    simp only [hstored, Option.filter_some, hjobId, decide_true, if_true] at hrest
    have hrest := (keeps_readAt_iff rfl).mp hrest readJob _ rfl hfault'
    simp only [hjob, hlease] at hrest
    rw [Keyed.key_of_get? hjob] at hrest
    exact (keeps_storeResult_iff hstored _ _ hstatus).mp hrest
      readEvent createEvent write rest rfl hread hcreate hwrite hnone
  · intro h
    refine (keeps_read_iff rfl).mpr fun readApproval _ hos hfault => ?_
    cases hrecord : (db.approvals.get? approvalId).filter (·.jobId = jobId) with
    | none => exact keeps_pure
    | some record =>
      obtain ⟨hstored, hjobId⟩ := Option.filter_eq_some_iff.mp hrecord
      refine (keeps_readAt_iff rfl).mpr fun readJob _ hos' hfault' => ?_
      cases hjob : db.jobs.get? jobId with
      | none => exact keeps_pure
      | some job =>
        refine alone_bind_iff.mpr (alone_ofOutcome.mpr ?_)
        cases hlease : assertCallbackLease job readJob.now input.toCallbackSource with
        | error e => trivial
        | ok _ =>
          refine (keeps_storeResult_iff hstored _ _ hstatus).mpr ?_
          rintro readEvent createEvent write rest rfl hread hcreate hwrite hnone
          rw [Keyed.key_of_get? hjob] at hnone
          refine h readApproval readJob readEvent createEvent write rest record job
            (by rw [hos, hos']) ?_ hstored (by simpa using hjobId) hjob hlease hnone
          simp [hfault, hfault', hread, hcreate, hwrite]

/-! ## Whole histories -/

structure Served where
  call : ApiCall
  outside : List Outside

def serve (db : Database) (served : Served) : Database :=
  runAlone (fun o db => db.perform o) served.outside db (served.call.program api)

def ObservesLifecycle (db : Database) (served : Served) : Prop :=
  Observed served.outside db (served.call.program api) fun _ _ _ => True

/-- An approval is given in time and a result comes in order. -/
def InOrder (db : Database) (served : Served) : Prop :=
  match served.call with
  | .approve context approvalId => ApprovedInTime db served.outside context approvalId
  | .callback (.approvalResult jobId approvalId input) =>
    ResultInOrder api db served.outside jobId approvalId input
  | _ => True

theorem keeps_bind_iff (hf : ∀ a, Within SparesApprovals (f a)) :
    Keeps os db (p >>= f) ↔ Keeps os db p :=
  ⟨fun h => (alone_bind_iff.mp h).mono fun _ _ _ _ => trivial,
    fun h => h.bind fun _ _ a _ => keeps_of_spares (hf a)⟩

theorem keeps_discard_iff : Keeps os db (do
        let _ ← p
        pure ()) ↔ Keeps os db p :=
  keeps_bind_iff fun _ => trivial

theorem keeps_callback_iff (request : Callback) : Keeps os db (request.serve api) ↔
      InOrder api db ⟨.callback request, os⟩ := by
  have hconfined := confined_serve api request
  cases request with
  | acquireLease | heartbeatLease | releaseLease | event | status =>
    refine iff_of_true (keeps_of_footprint hconfined fun hop => ?_) trivial
    simp only [Callback.footprint, acquireFootprint, heartbeatFootprint, releaseFootprint,
      eventFootprint, statusFootprint] at hop
    split at hop <;> trivial
  | createApproval jobId input =>
    exact iff_of_true (keeps_createAiRunnerCommandApproval _ _) trivial
  | getApproval jobId approvalId =>
    exact iff_of_true (keeps_getAiRunnerCommandApprovalFromCallback _ _) trivial
  | approvalResult jobId approvalId input =>
    exact keeps_result_iff api jobId approvalId input

theorem observesLifecycle_iff (db : Database) (served : Served) :
    ObservesLifecycle api db served ↔ InOrder api db served := by
  obtain ⟨call, os⟩ := served
  cases call with
  | callback request =>
    refine (keeps_bind_iff fun reply => ?_).trans (keeps_callback_iff api request)
    cases reply with
    | none => trivial
    | some reply => exact confined_bind_iff.mpr ⟨trivial, fun _ => trivial⟩
  | approve context approvalId =>
    exact keeps_discard_iff.trans (keeps_approve_iff context approvalId)
  | deny context approvalId =>
    exact iff_of_true (keeps_discard_iff.mpr (keeps_denyAiRunnerCommandApproval _ _)) trivial
  | denyAndUseDesktopControl context approvalId =>
    exact iff_of_true (keeps_discard_iff.mpr (keeps_denyAndUseDesktopControl _ _)) trivial
  | stop context jobId =>
    exact iff_of_true (keeps_discard_iff.mpr (keeps_stopAiRunnerJob _ _)) trivial
  | createJob input =>
    exact iff_of_true (keeps_discard_iff.mpr
      (keeps_of_footprint (confined_createAiRunnerJob input) spares_createJob)) trivial
  | reconcile => exact iff_of_true (keeps_of_footprint confined_reconcile spares_reconcile) trivial

/-- In every sequence of calls, each approval lives by the rules exactly if every approval
is given in time and every result comes in order. -/
theorem approvals_live_by_the_rules_iff (api : Api) (db : Database) (calls : List Served) :
    along (serve api) (ObservesLifecycle api) db calls ↔ along (serve api) (InOrder api) db calls :=
  along_congr (observesLifecycle_iff api) db calls

end Handlers

/-! A proposal is made at time 0, so the approval expires at 600000. -/

def oneShellJob : Database :=
  { Database.empty with
    jobs :=
      ⟨[{ id := "job", organizationId := "org", userId := "user", conversationId := none
          jobType := shellJobType, status := .running, runnerId := none, leaseId := none
          leaseOwnerRunnerId := none, leaseExpiresAt := none, cancelRequestedAt := none }],
        by decide⟩ }

def proposedAtZero : Served where
  call := .callback (.createApproval "job"
    { runnerId := none, leaseId := none, eventKey := none, turnIndex := some 0
      command := some "ls", explanation := some "list", risk := some "low" })
  outside := List.replicate 8 (.plain 0)

def approvedLate : List Served :=
  [proposedAtZero, ⟨.approve ⟨"org", "user"⟩ "approval", List.replicate 2 (.plain 600000)⟩]

def executedAfterDenial : List Served :=
  [proposedAtZero, ⟨.deny ⟨"org", "user"⟩ "approval", List.replicate 20 (.plain 1)⟩,
    ⟨.callback (.approvalResult "job" "approval"
      { runnerId := none, leaseId := none, eventKey := none, status := some "executed" }),
      List.replicate 5 (.plain 2)⟩]

theorem not_observesLifecycle_late_nor_after_denial :
    ¬ along (serve bareApi) (ObservesLifecycle bareApi) oneShellJob approvedLate ∧
      ¬ along (serve bareApi) (ObservesLifecycle bareApi) oneShellJob executedAfterDenial := by
  constructor
  · rintro ⟨_, happroved, _⟩
    have hintime := (observesLifecycle_iff _ _ _).mp happroved
    have hlate := hintime (.plain 600000) (.plain 600000) []
      { id := "approval", jobId := "job", organizationId := "org", userId := "user", turnIndex := 0
        command := "ls", status := .pending, decidedByUserId := none, expiresAt := some 600000 }
      rfl rfl rfl rfl rfl rfl
    exact absurd hlate (by decide)
  · rintro ⟨_, _, hresult, _⟩
    have horder := (observesLifecycle_iff _ _ _).mp hresult
    have hexecutes := horder (.plain 2) (.plain 2) (.plain 2) (.plain 2) (.plain 2) []
      { id := "approval", jobId := "job", organizationId := "org", userId := "user", turnIndex := 0
        command := "ls", status := .denied, decidedByUserId := some "user"
        expiresAt := some 600000 }
      _ rfl (by simp [Outside.plain]) rfl rfl rfl rfl rfl
    exact absurd hexecutes (by decide)

end Talos.CommandCenter
