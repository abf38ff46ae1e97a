import Mathlib.Data.List.Infix
import Talos.Worker.RebootNotice

/-!
# Announced reboots and bounded deferrals

The number of deferrals since the last reboot command is in the state file at
every place where a restart can happen, so it survives the restart and the limit
holds over any history. The deadline survives in the same file, and a flow that
is scheduled after the restart takes it over: when it has passed by then, or
comes within the warning time, the device reboots early.
-/

namespace Talos.Worker

open Rust Transition

/-! ## Deferrals are counted over restarts -/

/-- The deferrals since the last reboot command. -/
def deferralsSince : List Event → ℕ
  | [] => 0
  | .deferral _ :: earlier => deferralsSince earlier + 1
  | .reboot .. :: _ => 0

theorem storedDeferrals_le (file : Option RebootNoticeStateFile) :
    storedDeferrals file ≤ updateRebootNoticeMaxDeferrals := by
  cases file with
  | none => exact Nat.zero_le _
  | some state => exact Nat.min_le_right ..

theorem storedDeferrals_persist (now : ℕ) (flow : ActiveRebootNoticeFlow)
    (hmax : flow.maxDeferrals = updateRebootNoticeMaxDeferrals)
    (hused : flow.deferralsUsed ≤ updateRebootNoticeMaxDeferrals) :
    storedDeferrals (some (persistRebootNoticeState now flow)) = flow.deferralsUsed := by
  simp only [storedDeferrals, persistRebootNoticeState, Option.elim_some, hmax]
  omega

/-- The state file and the running flow hold the number of deferrals since the
last reboot command, which has never passed the limit. -/
structure Counted (m : Machine) : Prop where
  stored : storedDeferrals m.file = deferralsSince m.history
  running : ∀ running, m.running = some running →
    running.flow.maxDeferrals = updateRebootNoticeMaxDeferrals ∧
      running.flow.deferralsUsed = deferralsSince m.history
  bounded : ∀ earlier, earlier <:+ m.history →
    deferralsSince earlier ≤ updateRebootNoticeMaxDeferrals

theorem Counted.of_persisted {m m' : Machine} (h : Counted m) (running : RunningFlow)
    (hmax : running.flow.maxDeferrals = updateRebootNoticeMaxDeferrals)
    (hused : running.flow.deferralsUsed = deferralsSince m.history)
    (hhistory : m'.history = m.history)
    (hfile : m'.file = some (persistRebootNoticeState m'.now running.flow))
    (hrunning : ∀ later, m'.running = some later → later.flow = running.flow) : Counted m' := by
  have hle : running.flow.deferralsUsed ≤ updateRebootNoticeMaxDeferrals := by
    rw [hused, ← h.stored]
    exact storedDeferrals_le _
  refine ⟨?_, fun later hlater => ?_, ?_⟩
  · rw [hfile, storedDeferrals_persist _ _ hmax hle, hused, hhistory]
  · rw [hrunning later hlater, hhistory]
    exact ⟨hmax, hused⟩
  · rw [hhistory]
    exact h.bounded

theorem Counted.bounded_cons {m : Machine} (h : Counted m) {event : Event}
    (hevent : deferralsSince (event :: m.history) ≤ updateRebootNoticeMaxDeferrals) :
    ∀ earlier, earlier <:+ event :: m.history →
      deferralsSince earlier ≤ updateRebootNoticeMaxDeferrals := by
  intro earlier hsuffix
  rcases List.suffix_cons_iff.mp hsuffix with rfl | hsuffix
  · exact hevent
  · exact h.bounded earlier hsuffix

theorem Change.counted {m m' : Machine} {action : Step} (hchange : Change m action m')
    (h : Counted m) : Counted m' := by
  cases hchange with
  | unchanged => exact h
  | advanced ms now later => exact ⟨h.stored, h.running, h.bounded⟩
  | started uuid idle =>
    refine h.of_persisted ⟨scheduledFlow m.file m.now uuid, .notice, m.now, none⟩ rfl h.stored rfl
      rfl fun later hlater => ?_
    cases hlater
    rfl
  | stopped => exact ⟨h.stored, by simp, h.bounded⟩
  | waits action running active waiting =>
    refine ⟨h.stored, fun later hlater => ?_, h.bounded⟩
    cases hlater
    exact h.running running active
  | saved action running active =>
    obtain ⟨hmax, hused⟩ := h.running running active
    refine h.of_persisted running hmax hused rfl rfl fun later hlater => ?_
    cases hlater
    rfl
  | deferred frame running active left =>
    obtain ⟨hmax, hused⟩ := h.running running active
    have hle : running.flow.deferralsUsed + 1 ≤ updateRebootNoticeMaxDeferrals := hmax ▸ left
    have hsince : deferralsSince (.deferral m.now :: m.history)
        = running.flow.deferralsUsed + 1 := by
      rw [deferralsSince, hused]
    have hmax' : (Machine.deferredFlow m.now running.flow
        (running.flow.deferralsUsed + 1)).maxDeferrals = updateRebootNoticeMaxDeferrals := by
      rw [Machine.deferredFlow_maxDeferrals, hmax]
    refine ⟨?_, fun later hlater => ?_, h.bounded_cons (hsince.trans_le hle)⟩
    · exact (storedDeferrals_persist m.now _ hmax' hle).trans hsince.symm
    · rw [← Option.some.inj hlater]
      exact ⟨hmax', hsince.symm⟩
  | rebooted action running active answered due =>
    exact ⟨rfl, by simp [Machine.executeReboot], h.bounded_cons (Nat.zero_le _)⟩

theorem counted_initial (now : ℕ) : Counted (Machine.initial now) where
  stored := rfl
  running := by simp [Machine.initial]
  bounded earlier h := by
    rw [List.suffix_nil.mp h]
    exact Nat.zero_le _

/-! ## Reboots are announced -/

def LeavesWarning (since time : ℕ) : Prop := updateRebootNoticeWarning ≤ time - since

theorem LeavesWarning.mono {since time earlier later : ℕ} (h : LeavesWarning since time)
    (hsince : earlier ≤ since) (htime : time ≤ later) : LeavesWarning earlier later := by
  unfold LeavesWarning at *
  omega

/-- The warning time has passed since the schedule and the last deferral of a flow
when it reboots without an answer. -/
def Event.Announced : Event → Prop
  | .deferral _ => True
  | .reboot _ true _ _ => True
  | .reboot time false scheduledAt deferredAt =>
    LeavesWarning scheduledAt time ∧
      ∀ deferral, deferredAt = some deferral → LeavesWarning deferral time

/-- A schedule call that starts a flow finds no stored deadline or one that leaves
the warning time, and the clock has not come to its end. -/
def KeepsWarning (m : Machine) : Step → Prop
  | .schedule _ =>
    m.running = none →
      LeavesWarning m.now u64Max ∧
        ∀ deadline, m.file.bind (·.deadlineUnixMs) = some deadline → LeavesWarning m.now deadline
  | .frame _ => LeavesWarning (m.now + updateRebootNoticeDelay) u64Max
  | _ => True

/-- The deadline of the running flow leaves the warning time. -/
structure Warned (m : Machine) : Prop where
  running : ∀ running, m.running = some running →
    LeavesWarning running.scheduledAt running.flow.deadlineUnixMs ∧
      ∀ deferral, running.deferredAt = some deferral →
        LeavesWarning deferral running.flow.deadlineUnixMs
  history : ∀ event ∈ m.history, event.Announced
  past : ∀ running, m.running = some running → running.scheduledAt ≤ m.now

theorem leavesWarning_saturatingAdd {since time : ℕ} (h : since ≤ time)
    (hfits : LeavesWarning since u64Max) :
    LeavesWarning since (saturatingAdd time updateRebootNoticeWarning) := by
  unfold LeavesWarning saturatingAdd at *
  omega

theorem scheduledFlow_deadline {file : Option RebootNoticeStateFile} {now : ℕ} (uuid : String)
    (hfits : LeavesWarning now u64Max)
    (hstored : ∀ deadline, file.bind (·.deadlineUnixMs) = some deadline →
      LeavesWarning now deadline) :
    LeavesWarning now (scheduledFlow file now uuid).deadlineUnixMs := by
  simp only [scheduledFlow]
  cases hdeadline : file.bind (·.deadlineUnixMs) with
  | some deadline => exact hstored deadline hdeadline
  | none =>
    rw [Option.getD_none]
    exact leavesWarning_saturatingAdd (Nat.le_max_right ..) hfits

theorem deferredFlow_deadline {now : ℕ} (flow : ActiveRebootNoticeFlow) (deferrals : ℕ)
    (hfits : LeavesWarning (now + updateRebootNoticeDelay) u64Max) :
    LeavesWarning now (Machine.deferredFlow now flow deferrals).deadlineUnixMs := by
  have hnext : now ≤ unixMsAfter now updateRebootNoticeDelay := by
    have hpositive : 0 < updateRebootNoticeWarning := by decide +kernel
    unfold LeavesWarning at hfits
    unfold unixMsAfter saturatingAdd
    omega
  simp only [Machine.deferredFlow]
  exact leavesWarning_saturatingAdd hnext (hfits.mono (Nat.le_add_right ..) le_rfl)

theorem Change.warned {m m' : Machine} {action : Step} (hchange : Change m action m')
    (h : Warned m) (hstep : KeepsWarning m action) : Warned m' := by
  cases hchange with
  | unchanged => exact h
  | advanced ms now later =>
    exact ⟨h.running, h.history, fun running active => (h.past running active).trans later⟩
  | started uuid idle =>
    obtain ⟨hfits, hstored⟩ := hstep idle
    refine ⟨fun later hlater => ?_, h.history, fun later hlater => ?_⟩ <;> cases hlater
    · exact ⟨scheduledFlow_deadline uuid hfits hstored, by simp⟩
    · exact le_rfl
  | stopped => exact ⟨by simp, h.history, by simp⟩
  | waits action running active waiting =>
    refine ⟨fun later hlater => ?_, h.history, fun later hlater => ?_⟩ <;> cases hlater
    · exact h.running running active
    · exact h.past running active
  | saved action running active =>
    refine ⟨fun later hlater => ?_, h.history, fun later hlater => ?_⟩ <;> cases hlater
    · exact h.running running active
    · exact h.past running active
  | deferred frame running active left =>
    have hdeadline := deferredFlow_deadline running.flow (running.flow.deferralsUsed + 1) hstep
    have hpast := h.past running active
    refine ⟨fun later hlater => ?_, fun event hevent => ?_, fun later hlater => ?_⟩
    · rw [← Option.some.inj hlater, Machine.deferredRunning_scheduledAt]
      refine ⟨hdeadline.mono hpast le_rfl, fun deferral hdeferral => ?_⟩
      rw [← Option.some.inj hdeferral]
      exact hdeadline
    · rcases List.mem_cons.mp hevent with rfl | hevent
      · exact trivial
      · exact h.history event hevent
    · rw [← Option.some.inj hlater, Machine.deferredRunning_scheduledAt]
      exact hpast
  | rebooted action running active answered due =>
    refine ⟨by simp [Machine.executeReboot], fun event hevent => ?_,
      by simp [Machine.executeReboot]⟩
    rcases List.mem_cons.mp hevent with rfl | hevent
    · cases answered with
      | true => exact trivial
      | false =>
        obtain ⟨hscheduled, hdeferred⟩ := h.running running active
        exact ⟨hscheduled.mono le_rfl (due rfl),
          fun deferral hdeferral => (hdeferred deferral hdeferral).mono le_rfl (due rfl)⟩
    · exact h.history event hevent

theorem warned_initial (now : ℕ) : Warned (Machine.initial now) where
  running := by simp [Machine.initial]
  history := by simp [Machine.initial]
  past := by simp [Machine.initial]

/-! ## Histories -/

def Event.isReboot : Event → Bool
  | .deferral _ => false
  | .reboot .. => true

theorem deferralsSince_append {between : List Event} {first : Event} (earlier : List Event)
    (hfirst : first.isReboot = true) (hbetween : ∀ event ∈ between, event.isReboot = false) :
    deferralsSince (between ++ first :: earlier) = between.length := by
  induction between with
  | nil =>
    cases first with
    | deferral time => cases hfirst
    | reboot time answered scheduledAt deferredAt => rfl
  | cons event between ih =>
    cases event with
    | deferral time =>
      rw [List.cons_append, deferralsSince,
        ih fun event hmem => hbetween event (List.mem_cons_of_mem _ hmem), List.length_cons]
    | reboot time answered scheduledAt deferredAt =>
      cases hbetween _ List.mem_cons_self

/-- Over every history of calls, answers and restarts, a reboot without an answer
comes after the warning time if every call that starts a flow leaves it, and the
deferrals between two reboots never pass the limit. -/
theorem reboots_announced_and_deferrals_bounded (now : ℕ) (steps : List Step) :
    (along Machine.step KeepsWarning (.initial now) steps →
      ∀ event ∈ (run Machine.step (.initial now) steps).history, event.Announced) ∧
    (∀ later last between first earlier, (run Machine.step (.initial now) steps).history
        = later ++ last :: (between ++ first :: earlier) →
      last.isReboot = true → first.isReboot = true →
      (∀ event ∈ between, event.isReboot = false) →
      between.length ≤ updateRebootNoticeMaxDeferrals) := by
  constructor
  · intro hsteps
    exact (run_invariant_along (fun m action h hstep => (step_change m action).warned h hstep)
      (warned_initial now) hsteps).history
  · intro later last between first earlier hhistory _ hfirst hbetween
    have hcounted : Counted (run Machine.step (.initial now) steps) :=
      run_invariant (fun m action h => (step_change m action).counted h) (counted_initial now) steps
    rw [← deferralsSince_append earlier hfirst hbetween]
    refine hcounted.bounded _ ⟨later ++ [last], ?_⟩
    rw [hhistory, List.append_assoc, List.singleton_append]

def unansweredNotice : List Step :=
  [.schedule "notice", .wake false, .advance 900000, .wake false]

theorem reboots_announced_and_deferrals_bounded_unansweredNotice :
    (run Machine.step (.initial 0) unansweredNotice).history = [.reboot 900000 false 0 none] ∧
      (Event.reboot 900000 false 0 none).Announced := by
  have hhistory : (run Machine.step (.initial 0) unansweredNotice).history
      = [.reboot 900000 false 0 none] := by
    decide +kernel
  refine ⟨hhistory, (reboots_announced_and_deferrals_bounded 0 unansweredNotice).1 ?_ _ ?_⟩
  · refine ⟨fun _ => ⟨?_, fun deadline hdeadline => by cases hdeadline⟩, trivial, trivial, trivial,
      trivial⟩
    unfold LeavesWarning
    decide +kernel
  · rw [hhistory]
    exact List.mem_singleton_self _

/-- The worker restarts during a notice, and the next schedule call finds a
deadline that has passed. -/
theorem stale_deadline_reboots_at_once : (run Machine.step (.initial 0)
      [.schedule "notice", .restart, .advance 1000000, .schedule "notice", .wake false,
        .wake false]).history = [.reboot 1000000 false 1000000 none] ∧
      ¬ (Event.reboot 1000000 false 1000000 none).Announced := by
  refine ⟨by decide +kernel, fun h => ?_⟩
  have hwarning : updateRebootNoticeWarning ≤ 1000000 - 1000000 := h.1
  exact absurd hwarning (by decide +kernel)

end Talos.Worker
