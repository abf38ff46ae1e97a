import Talos.JavaScript.Rounding
import Talos.JavaScript.Runtime

/-!
# The lifecycle of an alert

`planAlertLifecycle` decides what becomes of an alert that is seen once more, and whether
to notify. No time of the last notification is stored: the alert is within the window as
long as the last call is, and every call moves the last time seen. So the calls between
two notifications only push the second one further away.
-/

namespace Talos.Alerts

open JavaScript
open Date (Time)

inductive AlertStatus where
  | opened
  | acknowledged
  | snoozed
  | resolved
  | suppressed
deriving DecidableEq

structure AlertLifecycleState where
  status : String
  firstSeenAt : Time
  lastSeenAt : Time
  occurrenceCount : Number
  acknowledgedAt : Option Time
  snoozedUntil : Option Time
  resolvedAt : Option Time
  suppressedUntil : Option Time

structure AlertLifecyclePlan where
  status : AlertStatus
  firstSeenAt : Time
  lastSeenAt : Time
  occurrenceCount : Number
  acknowledgedAt : Option Time
  snoozedUntil : Option Time
  resolvedAt : Option Time
  suppressedUntil : Option Time
  duplicateSuppressed : Bool
  reopened : Bool
  snoozeExpired : Bool
  notificationSuggested : Bool
  reason : String

def normalizeAlertStatus (js : Runtime) (value : String) : Option AlertStatus :=
  match js.toLowerCase (trim value) with
  | "open" => some .opened
  | "acknowledged" => some .acknowledged
  | "snoozed" => some .snoozed
  | "resolved" => some .resolved
  | "suppressed" => some .suppressed
  | _ => none

def secondsBetween (left right : Time) : Number :=
  match left.getTime.sub right.getTime with
  | .finite gap => Number.roundToDouble (|gap| / 1000)
  | .infinity _ => .infinity false
  | .nan => .nan

/-- `Math.max(0, value)`. -/
def orZero : Number → Number
  | .nan => .nan
  | .infinity negative => if negative then .finite 0 else .infinity false
  | .finite value => .finite (max 0 value)

def dedupeWindow (dedupeWindowSeconds : Option Number) : Number :=
  orZero (dedupeWindowSeconds.getD (.finite 0))

/-- `Math.max(0, count || 0) + 1`. -/
def nextCount (count : Number) : Number :=
  (orZero (if count.truthy then count else .finite 0)).add (.finite 1)

def withinDedupeWindow (existing : AlertLifecycleState) (now : Time)
    (dedupeWindowSeconds : Option Number) : Bool :=
  (Number.ofInt 0).lt (dedupeWindow dedupeWindowSeconds) &&
    (secondsBetween now existing.lastSeenAt).lt (dedupeWindow dedupeWindowSeconds)

/-- `until && until > now`. -/
def inFuture (time : Option Time) (now : Time) : Bool := time.any (now.value < ·.value)

def planAlertLifecycle (js : Runtime) (existing : Option AlertLifecycleState) (now : Time)
    (dedupeWindowSeconds : Option Number) : AlertLifecyclePlan :=
  match existing with
  | none =>
    { status := .opened, firstSeenAt := now, lastSeenAt := now, occurrenceCount := .finite 1,
      acknowledgedAt := none, snoozedUntil := none, resolvedAt := none, suppressedUntil := none,
      duplicateSuppressed := false, reopened := false, snoozeExpired := false,
      notificationSuggested := true, reason := "new_alert" }
  | some existing =>
    let status := (normalizeAlertStatus js existing.status).getD .opened
    let within := withinDedupeWindow existing now dedupeWindowSeconds
    -- What the branches of the source share; each of them sets the last two fields.
    let base : AlertLifecyclePlan :=
      { status, firstSeenAt := existing.firstSeenAt, lastSeenAt := now,
        occurrenceCount := nextCount existing.occurrenceCount,
        acknowledgedAt := existing.acknowledgedAt, snoozedUntil := existing.snoozedUntil,
        resolvedAt := existing.resolvedAt, suppressedUntil := existing.suppressedUntil,
        duplicateSuppressed := within, reopened := false, snoozeExpired := false,
        notificationSuggested := false, reason := "" }
    match status with
    | .resolved =>
      { base with
        status := .opened, acknowledgedAt := none, snoozedUntil := none, resolvedAt := none,
        reopened := true, notificationSuggested := !within,
        reason := if within then "resolved_duplicate_suppressed" else "resolved_reopened" }
    | .snoozed =>
      if inFuture existing.snoozedUntil now then
        { base with duplicateSuppressed := true, reason := "snoozed" }
      else
        { base with
          status := .opened, snoozedUntil := none, snoozeExpired := true,
          notificationSuggested := !within,
          reason := if within then "snooze_expired_duplicate_suppressed" else "snooze_expired" }
    | .suppressed =>
      if inFuture existing.suppressedUntil now then
        { base with duplicateSuppressed := true, reason := "suppressed" }
      else
        { base with
          status := .opened, suppressedUntil := none, notificationSuggested := !within,
          reason := if within then "suppression_expired_duplicate_suppressed"
            else "suppression_expired" }
    | status =>
      if within then { base with reason := "duplicate_suppressed" }
      else
        { base with
          notificationSuggested := status = .opened,
          reason := if status = .acknowledged then "acknowledged_recurrence" else "recurrence" }

/-! ## Runs -/

/-- What operators leave of the alert before a call. -/
structure OperatorChange where
  status : String
  acknowledgedAt : Option Time
  snoozedUntil : Option Time
  resolvedAt : Option Time
  suppressedUntil : Option Time

structure Call where
  change : OperatorChange
  now : Time

def OperatorChange.apply (change : OperatorChange) (plan : AlertLifecyclePlan) :
    AlertLifecycleState where
  status := change.status
  firstSeenAt := plan.firstSeenAt
  lastSeenAt := plan.lastSeenAt
  occurrenceCount := plan.occurrenceCount
  acknowledgedAt := change.acknowledgedAt
  snoozedUntil := change.snoozedUntil
  resolvedAt := change.resolvedAt
  suppressedUntil := change.suppressedUntil

section Runs

variable (js : Runtime) (window : Option Number)

/-- The calls one after another, each with the alert it finds and the plan it makes. -/
def run : Option AlertLifecyclePlan → List Call →
    List (Option AlertLifecycleState × AlertLifecyclePlan)
  | _, [] => []
  | stored, call :: calls =>
    let existing := stored.map call.change.apply
    let plan := planAlertLifecycle js existing call.now window
    (existing, plan) :: run (some plan) calls

variable {js window}

/-- What every plan over a stored alert keeps. -/
structure Continues (js : Runtime) (window : Option Number) (existing : AlertLifecycleState)
    (now : Time) (plan : AlertLifecyclePlan) : Prop where
  firstSeenAt : plan.firstSeenAt = existing.firstSeenAt
  lastSeenAt : plan.lastSeenAt = now
  occurrenceCount : plan.occurrenceCount = nextCount existing.occurrenceCount
  outside : plan.notificationSuggested = true → withinDedupeWindow existing now window = false
  snoozed : normalizeAlertStatus js existing.status = some .snoozed →
    inFuture existing.snoozedUntil now = true → plan.notificationSuggested = false
  suppressed : normalizeAlertStatus js existing.status = some .suppressed →
    inFuture existing.suppressedUntil now = true → plan.notificationSuggested = false

theorem continues_planAlertLifecycle (js : Runtime) (window : Option Number)
    (existing : AlertLifecycleState) (now : Time) :
    Continues js window existing now (planAlertLifecycle js (some existing) now window) := by
  cases hstatus : (normalizeAlertStatus js existing.status).getD .opened with
  | snoozed =>
    cases hfuture : inFuture existing.snoozedUntil now <;>
      constructor <;> simp_all [planAlertLifecycle]
  | suppressed =>
    cases hfuture : inFuture existing.suppressedUntil now <;>
      constructor <;> simp_all [planAlertLifecycle]
  | _ =>
    cases hwithin : withinDedupeWindow existing now window <;>
      constructor <;> simp_all [planAlertLifecycle]

theorem lastSeenAt_planAlertLifecycle (existing : Option AlertLifecycleState) (now : Time) :
    (planAlertLifecycle js existing now window).lastSeenAt = now := by
  cases existing with
  | none => rfl
  | some existing => exact (continues_planAlertLifecycle js window existing now).lastSeenAt

/-! ## Distances -/

theorem secondsBetween_mono {t s now : Time} (hts : t.value ≤ s.value) (hsn : s.value ≤ now.value) :
    secondsBetween now t = .infinity false ∨ ∃ x y, secondsBetween now s = .finite x ∧
      secondsBetween now t = .finite y ∧ 0 ≤ x ∧ x ≤ y := by
  have hgap (u : Time) :
      now.getTime.sub u.getTime = Number.roundToDouble ((now.value - u.value : ℤ) : ℚ) := by
    rw [Int.cast_sub, sub_eq_add_neg]
    rfl
  have hle : now.value - s.value ≤ now.value - t.value := by omega
  unfold secondsBetween
  rw [hgap, hgap]
  rcases Number.roundToDouble_mono (by exact_mod_cast (by omega : 0 ≤ now.value - s.value))
    (Int.cast_le (R := ℚ).mpr hle) with hfar | ⟨x, y, hx, hy, hnonneg, hxy⟩
  · rw [hfar]
    exact .inl rfl
  · rw [hx, hy]
    dsimp only
    rw [abs_of_nonneg hnonneg, abs_of_nonneg (hnonneg.trans hxy)]
    exact Number.roundToDouble_mono (div_nonneg hnonneg (by norm_num))
      (div_le_div_of_nonneg_right hxy (by norm_num))

/-- What is outside the window of a later time is outside that of an earlier one. -/
theorem outside_of_le {t s now : Time} (hts : t.value ≤ s.value) (hsn : s.value ≤ now.value)
    {bound : Number}
    (h : ((Number.ofInt 0).lt bound && (secondsBetween now s).lt bound) = false) :
    (secondsBetween now t).lt bound = false := by
  rcases secondsBetween_mono hts hsn with hfar | ⟨x, y, hx, hy, hnonneg, hxy⟩
  · rw [hfar]
    cases bound <;> rfl
  · rw [hx] at h
    rw [hy]
    cases bound with
    | nan => rfl
    | infinity negative => simpa [Number.lt, Number.ofInt] using h
    | finite seconds =>
      simp only [Number.lt, Number.ofInt, Bool.and_eq_false_iff, decide_eq_false_iff_not, not_lt,
        Int.cast_zero] at h ⊢
      rcases h with h | h
      · exact h.trans (hnonneg.trans hxy)
      · exact h.trans hxy

variable {calls : List Call}

/-- After a stored plan, a notification keeps its distance from every time up to the plan's. -/
theorem far_of_mem_run (htimes : calls.Pairwise fun a b => a.now.value ≤ b.now.value)
    (stored : AlertLifecyclePlan)
    (hafter : ∀ call ∈ calls, stored.lastSeenAt.value ≤ call.now.value) {t : Time}
    (ht : t.value ≤ stored.lastSeenAt.value) :
    ∀ step ∈ run js window (some stored) calls, step.2.notificationSuggested = true →
      (secondsBetween step.2.lastSeenAt t).lt (dedupeWindow window) = false := by
  induction calls generalizing stored with
  | nil => exact fun _ hstep => nomatch hstep
  | cons call calls ih =>
    obtain ⟨hfirst, hrest⟩ := List.pairwise_cons.mp htimes
    have hnow := hafter call List.mem_cons_self
    intro step hstep hnotify
    rcases List.mem_cons.mp hstep with rfl | hstep
    · rw [lastSeenAt_planAlertLifecycle]
      have hplan := continues_planAlertLifecycle js window (call.change.apply stored) call.now
      exact outside_of_le ht hnow (hplan.outside hnotify)
    · refine ih hrest _ (fun later hlater => ?_) ?_ step hstep hnotify
      · rw [lastSeenAt_planAlertLifecycle]
        exact hfirst later hlater
      · rw [lastSeenAt_planAlertLifecycle]
        exact ht.trans hnow

theorem pairwise_run (htimes : calls.Pairwise fun a b => a.now.value ≤ b.now.value)
    (stored : Option AlertLifecyclePlan) :
    (run js window stored calls).Pairwise fun a b => a.2.notificationSuggested = true →
      b.2.notificationSuggested = true →
        (secondsBetween b.2.lastSeenAt a.2.lastSeenAt).lt (dedupeWindow window) = false := by
  induction calls generalizing stored with
  | nil => exact List.Pairwise.nil
  | cons call calls ih =>
    obtain ⟨hfirst, hrest⟩ := List.pairwise_cons.mp htimes
    refine List.pairwise_cons.mpr ⟨fun step hstep _ hnotify => ?_, ih hrest _⟩
    refine far_of_mem_run hrest _ (fun later hlater => ?_) le_rfl step hstep hnotify
    rw [lastSeenAt_planAlertLifecycle]
    exact hfirst later hlater

theorem lastSeenAt_run (calls : List Call) (stored : Option AlertLifecyclePlan) :
    (run js window stored calls).map (·.2.lastSeenAt) = calls.map (·.now) := by
  induction calls generalizing stored with
  | nil => rfl
  | cons call calls ih =>
    exact congrArg₂ List.cons (lastSeenAt_planAlertLifecycle _ call.now) (ih _)

theorem mem_run {stored : Option AlertLifecyclePlan} {existing : AlertLifecycleState}
    {plan : AlertLifecyclePlan} (h : (some existing, plan) ∈ run js window stored calls) :
    Continues js window existing plan.lastSeenAt plan := by
  induction calls generalizing stored with
  | nil => exact nomatch h
  | cons call calls ih =>
    rcases List.mem_cons.mp h with h | h
    · obtain ⟨hexisting, rfl⟩ := Prod.mk.injEq .. ▸ h
      rw [← hexisting, lastSeenAt_planAlertLifecycle]
      exact continues_planAlertLifecycle js window existing call.now
    · exact ih h

/-- What a counter of binary64 numbers shows after a number of calls. -/
def countOf (calls : ℕ) : Number := .finite (min calls (2 ^ 53) : ℕ)

theorem nextCount_countOf (n : ℕ) : nextCount (countOf n) = countOf (n + 1) := by
  have hzero : orZero (if (countOf n).truthy then countOf n else .finite 0) = countOf n := by
    cases htrue : (countOf n).truthy with
    | true => exact congrArg Number.finite (max_eq_right (Nat.cast_nonneg _))
    | false =>
      have hvalue : ((min n (2 ^ 53) : ℕ) : ℚ) = 0 := not_not.mp (of_decide_eq_false htrue)
      rw [countOf, hvalue]
      rfl
  rw [nextCount, hzero, countOf, Number.add_one_natCast (min_le_right _ _), countOf]
  congr 2
  omega

theorem count_new (js : Runtime) (window : Option Number) (now : Time) :
    (planAlertLifecycle js none now window).occurrenceCount = countOf 1 := rfl

theorem run_counts (calls : List Call) {stored : AlertLifecyclePlan} {n : ℕ}
    (hstored : stored.occurrenceCount = countOf n) :
    (run js window (some stored) calls).map (·.2.occurrenceCount) =
        (List.range' (n + 1) calls.length).map countOf ∧
      ∀ step ∈ run js window (some stored) calls, step.2.firstSeenAt = stored.firstSeenAt := by
  induction calls generalizing stored n with
  | nil => exact ⟨rfl, fun _ hstep => nomatch hstep⟩
  | cons call calls ih =>
    have hplan := continues_planAlertLifecycle js window (call.change.apply stored) call.now
    have hcount : (planAlertLifecycle js (some (call.change.apply stored)) call.now
        window).occurrenceCount = countOf (n + 1) := by
      rw [hplan.occurrenceCount, ← nextCount_countOf, ← hstored]
      rfl
    obtain ⟨hcounts, hseen⟩ := ih hcount
    refine ⟨congrArg₂ List.cons hcount hcounts, fun step hstep => ?_⟩
    rcases List.mem_cons.mp hstep with rfl | hstep
    · exact hplan.firstSeenAt
    · exact (hseen step hstep).trans hplan.firstSeenAt

theorem run_counts_none (calls : List Call) :
    (run js window none calls).map (·.2.occurrenceCount) =
      (List.range' 1 calls.length).map countOf := by
  cases calls with
  | nil => rfl
  | cons call calls =>
    have hcount := count_new js window call.now
    exact congrArg₂ List.cons hcount (run_counts calls hcount).1

end Runs

/-- Whatever operators do between the calls, two notifications are the window apart, an alert
that is snoozed or suppressed into the future is not notified, the calls are counted up to
`2 ^ 53` and the first time seen stays. -/
theorem notifications_throttled (js : Runtime) (window : Option Number) (calls : List Call)
    (htimes : calls.Pairwise fun a b => a.now.value ≤ b.now.value) :
    ((run js window none calls).Pairwise fun a b => a.2.notificationSuggested = true →
      b.2.notificationSuggested = true →
        (secondsBetween b.2.lastSeenAt a.2.lastSeenAt).lt (dedupeWindow window) = false) ∧
    (∀ existing plan, (some existing, plan) ∈ run js window none calls →
      (normalizeAlertStatus js existing.status = some .snoozed ∧
          inFuture existing.snoozedUntil plan.lastSeenAt = true ∨
        normalizeAlertStatus js existing.status = some .suppressed ∧
          inFuture existing.suppressedUntil plan.lastSeenAt = true) →
      plan.notificationSuggested = false) ∧
    (run js window none calls).map (·.2.occurrenceCount) =
      (List.range' 1 calls.length).map countOf ∧
    (run js window none calls).map (·.2.lastSeenAt) = calls.map (·.now) ∧
    ∀ first ∈ calls.head?, ∀ step ∈ run js window none calls, step.2.firstSeenAt = first.now := by
  refine ⟨pairwise_run htimes none, fun existing plan hplan => ?_, run_counts_none calls,
    lastSeenAt_run calls none, ?_⟩
  · rintro (⟨hstatus, hfuture⟩ | ⟨hstatus, hfuture⟩)
    · exact (mem_run hplan).snoozed hstatus hfuture
    · exact (mem_run hplan).suppressed hstatus hfuture
  · cases calls with
    | nil => exact fun _ hfirst => nomatch hfirst
    | cons call calls =>
      intro first hfirst step hstep
      obtain rfl := Option.some_inj.mp hfirst
      rcases List.mem_cons.mp hstep with rfl | hstep
      · rfl
      · exact (run_counts calls (count_new js window call.now)).2 step hstep

theorem inRange_zero : |(0 : ℤ)| ≤ Date.maxTime := by decide

def firstCall : Call := ⟨⟨"", none, none, none, none⟩, ⟨0, inRange_zero⟩⟩

/-- Two calls with an operator's change in between. -/
def quietCalls : List Call :=
  [firstCall, ⟨⟨"resolved", none, none, none, none⟩, ⟨1000, by decide⟩⟩]

theorem notifications_throttled_quietCalls :
    (quietCalls.Pairwise fun a b => a.now.value ≤ b.now.value) ∧
      ((run .bare (some (.finite 300)) none quietCalls).Pairwise fun a b =>
        a.2.notificationSuggested = true → b.2.notificationSuggested = true →
          (secondsBetween b.2.lastSeenAt a.2.lastSeenAt).lt (dedupeWindow (some (.finite 300))) =
            false) :=
  ⟨by decide, (notifications_throttled .bare _ quietCalls (by decide)).1⟩

/-- After so many calls at one time the count is behind their number. -/
theorem occurrence_count_stops :
    ((List.replicate (2 ^ 53 + 1) firstCall).Pairwise fun a b => a.now.value ≤ b.now.value) ∧
      ((run .bare none none (List.replicate (2 ^ 53 + 1) firstCall)).map
        (·.2.occurrenceCount)).getLast? = some (.finite (2 ^ 53)) := by
  refine ⟨List.pairwise_replicate.mpr (.inr le_rfl), ?_⟩
  rw [run_counts_none, List.length_replicate, List.getLast?_map, List.getLast?_range',
    if_neg (by decide)]
  decide +kernel

end Talos.Alerts
