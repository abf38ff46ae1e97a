import Mathlib.Tactic.SplitIfs
import Talos.Rust.Core
import Talos.Transition.Run

/-!
# The reboot notice

`schedule_update_reboot_notice_flow` and the thread it starts, as a machine with
a clock, the state file and at most one running flow. The thread only ever stops
to sleep or to wait for the notice window, so between two such places it takes
one step; what the operating system, the window and the user do is part of the
action. A restart of the worker or of the device takes the thread away and
leaves the file.

The history records the deferrals and the reboot commands. A flow remembers when
it was scheduled and last deferred, which the source does not need to know.
-/

namespace Talos.Worker

open Rust

/-! ## State -/

/-- `UPDATE_REBOOT_NOTICE_WARNING` in milliseconds. -/
@[irreducible] def updateRebootNoticeWarning : ℕ := 15 * 60 * 1000

/-- `UPDATE_REBOOT_NOTICE_DELAY` in milliseconds. -/
@[irreducible] def updateRebootNoticeDelay : ℕ := 15 * 60 * 1000

def updateRebootNoticeMaxDeferrals : ℕ := 4

/-- `UPDATE_REBOOT_NOTICE_CONNECT_TIMEOUT` in milliseconds. -/
@[irreducible] def updateRebootNoticeConnectTimeout : ℕ := 45 * 1000

structure RebootNoticeStateFile where
  noticeId : String
  deferralsUsed : ℕ
  maxDeferrals : ℕ
  nextNoticeUnixMs : Option ℕ
  deadlineUnixMs : Option ℕ
  updatedAtUnixMs : ℕ

structure ActiveRebootNoticeFlow where
  noticeId : String
  nextNoticeUnixMs : ℕ
  deadlineUnixMs : ℕ
  deferralsUsed : ℕ
  maxDeferrals : ℕ
  delayMinutes : ℕ

inductive RebootNoticeOutcome where
  | defer
  | rebootNow
  | timeout

inductive Waiting where
  /-- The sleep until the notice is due. -/
  | notice
  /-- The notice window has to connect before the given time. -/
  | accepting (acceptUntil : ℕ)
  | authenticating
  | reading
  /-- The sleep until the deadline. -/
  | deadline
  /-- The sleep after a deferral. -/
  | delay (wakeAt : ℕ)

structure RunningFlow where
  flow : ActiveRebootNoticeFlow
  waiting : Waiting
  scheduledAt : ℕ
  deferredAt : Option ℕ

inductive Event where
  | deferral (time : ℕ)
  | reboot (time : ℕ) (answered : Bool) (scheduledAt : ℕ) (deferredAt : Option ℕ)
deriving DecidableEq

/-- The newest event comes first. -/
structure Machine where
  now : ℕ
  file : Option RebootNoticeStateFile
  running : Option RunningFlow
  history : List Event

def Machine.initial (now : ℕ) : Machine := ⟨now, none, none, []⟩

/-! ## The functions of the source -/

def persistRebootNoticeState (now : ℕ) (flow : ActiveRebootNoticeFlow) : RebootNoticeStateFile where
  noticeId := flow.noticeId
  deferralsUsed := flow.deferralsUsed
  maxDeferrals := flow.maxDeferrals
  nextNoticeUnixMs := some flow.nextNoticeUnixMs
  deadlineUnixMs := some flow.deadlineUnixMs
  updatedAtUnixMs := now

def unixMsAfter (now duration : ℕ) : ℕ := saturatingAdd now duration

def rebootNoticeCanDefer (deferralsUsed maxDeferrals : ℕ) : Bool := deferralsUsed < maxDeferrals

def nextRebootNoticeDeferralCount (deferralsUsed maxDeferrals : ℕ) : Option ℕ :=
  if rebootNoticeCanDefer deferralsUsed maxDeferrals then some (deferralsUsed + 1) else none

def storedDeferrals (persisted : Option RebootNoticeStateFile) : ℕ :=
  persisted.elim 0 fun state =>
    min (min state.deferralsUsed state.maxDeferrals) updateRebootNoticeMaxDeferrals

def scheduledFlow (persisted : Option RebootNoticeStateFile) (now : ℕ) (uuid : String) :
    ActiveRebootNoticeFlow :=
  let nextNoticeUnixMs := (persisted.bind (·.nextNoticeUnixMs)).getD now
  { noticeId := ((persisted.map fun state => trim state.noticeId).filter (· ≠ "")).getD uuid
    nextNoticeUnixMs := nextNoticeUnixMs
    deadlineUnixMs := (persisted.bind (·.deadlineUnixMs)).getD
      (saturatingAdd (max nextNoticeUnixMs now) updateRebootNoticeWarning)
    deferralsUsed := storedDeferrals persisted
    maxDeferrals := updateRebootNoticeMaxDeferrals
    delayMinutes := updateRebootNoticeDelay / 1000 / 60 }

namespace Machine

variable (m : Machine) (running : RunningFlow)

/-- The start of the loop: the flow is saved, and the thread sleeps until the
notice is due. -/
def saveAndSleep : Machine :=
  { m with
    file := some (persistRebootNoticeState m.now running.flow)
    running := some { running with waiting := .notice } }

/-- `schedule_update_reboot_notice_flow` when no flow is active, up to the first
sleep of the thread. -/
def startFlow (uuid : String) : Machine :=
  m.saveAndSleep
    { flow := scheduledFlow m.file m.now uuid, waiting := .notice, scheduledAt := m.now
      deferredAt := none }

/-- The end of the flow: the state file is removed and the reboot command is
run. -/
def executeReboot (answered : Bool) : Machine :=
  { m with
    file := none
    running := none
    history := .reboot m.now answered running.scheduledAt running.deferredAt :: m.history }

def deferredFlow (now : ℕ) (flow : ActiveRebootNoticeFlow) (deferrals : ℕ) :
    ActiveRebootNoticeFlow :=
  let nextNoticeUnixMs := unixMsAfter now updateRebootNoticeDelay
  { flow with
    deferralsUsed := deferrals
    nextNoticeUnixMs := nextNoticeUnixMs
    deadlineUnixMs := saturatingAdd nextNoticeUnixMs updateRebootNoticeWarning }

def deferredRunning (now : ℕ) (running : RunningFlow) (deferrals : ℕ) : RunningFlow where
  flow := deferredFlow now running.flow deferrals
  waiting := .delay (now + updateRebootNoticeDelay)
  scheduledAt := running.scheduledAt
  deferredAt := some now

@[simp] theorem deferredFlow_maxDeferrals (now : ℕ) (flow : ActiveRebootNoticeFlow)
    (deferrals : ℕ) : (deferredFlow now flow deferrals).maxDeferrals = flow.maxDeferrals := by
  cases flow
  rfl

@[simp] theorem deferredRunning_scheduledAt (now : ℕ) (running : RunningFlow) (deferrals : ℕ) :
    (deferredRunning now running deferrals).scheduledAt = running.scheduledAt := by
  cases running
  rfl

def grantDeferral (deferrals : ℕ) : Machine :=
  { m with
    file := some (persistRebootNoticeState m.now (deferredFlow m.now running.flow deferrals))
    running := some (deferredRunning m.now running deferrals)
    history := .deferral m.now :: m.history }

/-- What the loop does with the outcome of a notice. -/
def finishNotice : RebootNoticeOutcome → Machine
  | .defer =>
    match nextRebootNoticeDeferralCount running.flow.deferralsUsed running.flow.maxDeferrals with
    | some deferrals => m.grantDeferral running deferrals
    | none => m.executeReboot running true
  | .rebootNow => m.executeReboot running true
  | .timeout => m.executeReboot running false

def wait (waiting : Waiting) : Machine :=
  { m with running := some { running with waiting } }

/-- The start of the loop that reads frames. -/
def readFrames : Machine :=
  if running.flow.deadlineUnixMs ≤ m.now then m.finishNotice running .timeout
  else m.wait running .reading

end Machine

/-! ## Steps -/

inductive RebootNoticeAction where
  | defer
  | rebootNow

def RebootNoticeAction.outcome : RebootNoticeAction → RebootNoticeOutcome
  | defer => .defer
  | rebootNow => .rebootNow

inductive NoticeFrame where
  /-- The stream is closed, fails, or times out. -/
  | closed
  /-- A frame that is not the answer to a notice. -/
  | other
  | action (noticeId : String) (action : RebootNoticeAction)

inductive Step where
  | advance (ms : ℕ)
  /-- A schedule call, with the identifier it would draw for a new notice. -/
  | schedule (uuid : String)
  /-- A restart of the worker or of the device. -/
  | restart
  /-- The end of a sleep; a notice that is due is then launched or not. -/
  | wake (launched : Bool)
  | accept (connected : Bool)
  | authenticate (accepted : Bool)
  | frame (frame : NoticeFrame)

namespace Machine

/-- One step of the thread; an action that does not fit its place is
ignored. -/
def resume (m : Machine) (running : RunningFlow) : Step → Machine
  | .wake launched =>
    match running.waiting with
    | .notice =>
      if running.flow.nextNoticeUnixMs ≤ m.now then
        if launched then
          m.wait running (.accepting
            (min running.flow.deadlineUnixMs
              (unixMsAfter m.now updateRebootNoticeConnectTimeout)))
        else m.wait running .deadline
      else m
    | .accepting acceptUntil => if acceptUntil ≤ m.now then m.wait running .deadline else m
    | .deadline =>
      if running.flow.deadlineUnixMs ≤ m.now then m.finishNotice running .timeout else m
    | .delay wakeAt => if wakeAt ≤ m.now then m.saveAndSleep running else m
    | _ => m
  | .accept connected =>
    match running.waiting with
    | .accepting acceptUntil =>
      if m.now < acceptUntil then
        m.wait running (if connected then .authenticating else .deadline)
      else m
    | _ => m
  | .authenticate accepted =>
    match running.waiting with
    | .authenticating => if accepted then m.readFrames running else m.wait running .deadline
    | _ => m
  | .frame frame =>
    match running.waiting, frame with
    | .reading, .closed => m.wait running .deadline
    | .reading, .other => m.readFrames running
    | .reading, .action noticeId action =>
      if noticeId = running.flow.noticeId then m.finishNotice running action.outcome
      else m.readFrames running
    | _, _ => m
  | _ => m

def step (m : Machine) : Step → Machine
  | .advance ms => { m with now := if m.now + ms ≤ u64Max then m.now + ms else m.now }
  | .schedule uuid =>
    match m.running with
    | none => m.startFlow uuid
    | some _ => m
  | .restart => { m with running := none }
  | action =>
    match m.running with
    | none => m
    | some running => m.resume running action

end Machine

/-! ## What a step can do -/

/-- The changes that a step can make. -/
inductive Change (m : Machine) : Step → Machine → Prop where
  | unchanged (action : Step) : Change m action m
  | advanced (ms now : ℕ) (later : m.now ≤ now) : Change m (.advance ms) { m with now }
  | started (uuid : String) (idle : m.running = none) :
      Change m (.schedule uuid) (m.startFlow uuid)
  | stopped : Change m .restart { m with running := none }
  | waits (action : Step) (running : RunningFlow) (active : m.running = some running)
      (waiting : Waiting) : Change m action (m.wait running waiting)
  | saved (action : Step) (running : RunningFlow) (active : m.running = some running) :
      Change m action (m.saveAndSleep running)
  | deferred (frame : NoticeFrame) (running : RunningFlow) (active : m.running = some running)
      (left : running.flow.deferralsUsed < running.flow.maxDeferrals) :
      Change m (.frame frame) (m.grantDeferral running (running.flow.deferralsUsed + 1))
  | rebooted (action : Step) (running : RunningFlow) (active : m.running = some running)
      (answered : Bool)
      (due : answered = false → running.flow.deadlineUnixMs ≤ m.now) :
      Change m action (m.executeReboot running answered)

variable {m : Machine} {running : RunningFlow}

variable (h : m.running = some running)
include h

theorem readFrames_change (action : Step) : Change m action (m.readFrames running) := by
  unfold Machine.readFrames
  split
  next hdue => exact .rebooted action running h false fun _ => hdue
  next => exact .waits action running h .reading

theorem answered_change (frame : NoticeFrame) (answer : RebootNoticeAction) :
    Change m (.frame frame) (m.finishNotice running answer.outcome) := by
  cases answer with
  | rebootNow => exact .rebooted _ running h true (by simp)
  | defer =>
    simp only [RebootNoticeAction.outcome, Machine.finishNotice, nextRebootNoticeDeferralCount,
      rebootNoticeCanDefer, decide_eq_true_eq]
    by_cases hleft : running.flow.deferralsUsed < running.flow.maxDeferrals
    · rw [if_pos hleft]
      exact .deferred frame running h hleft
    · rw [if_neg hleft]
      exact .rebooted _ running h true (by simp)

theorem wake_change (launched : Bool) :
    Change m (.wake launched) (m.resume running (.wake launched)) := by
  cases hwaiting : running.waiting <;> simp only [Machine.resume, hwaiting]
  case notice =>
    split_ifs
    · exact .waits _ running h _
    · exact .waits _ running h _
    · exact .unchanged _
  case accepting =>
    split_ifs
    · exact .waits _ running h _
    · exact .unchanged _
  case authenticating => exact .unchanged _
  case reading => exact .unchanged _
  case deadline =>
    split_ifs with hdue
    · exact .rebooted _ running h false fun _ => hdue
    · exact .unchanged _
  case delay =>
    split_ifs
    · exact .saved _ running h
    · exact .unchanged _

theorem frame_change (frame : NoticeFrame) :
    Change m (.frame frame) (m.resume running (.frame frame)) := by
  unfold Machine.resume
  dsimp only
  split
  · exact .waits _ running h _
  · exact readFrames_change h _
  · split
    · exact answered_change h _ _
    · exact readFrames_change h _
  · exact .unchanged _

theorem accept_change (connected : Bool) :
    Change m (.accept connected) (m.resume running (.accept connected)) := by
  cases hwaiting : running.waiting <;> simp only [Machine.resume, hwaiting]
  case accepting =>
    split
    · exact .waits _ running h _
    · exact .unchanged _
  all_goals exact .unchanged _

theorem authenticate_change (accepted : Bool) :
    Change m (.authenticate accepted) (m.resume running (.authenticate accepted)) := by
  cases hwaiting : running.waiting <;> simp only [Machine.resume, hwaiting]
  case authenticating =>
    split
    · exact readFrames_change h _
    · exact .waits _ running h _
  all_goals exact .unchanged _

theorem resume_change (action : Step) : Change m action (m.resume running action) := by
  cases action with
  | wake launched => exact wake_change h launched
  | accept connected => exact accept_change h connected
  | authenticate accepted => exact authenticate_change h accepted
  | frame frame => exact frame_change h frame
  | advance ms => exact .unchanged _
  | schedule uuid => exact .unchanged _
  | restart => exact .unchanged _

omit h in
theorem step_change (m : Machine) (action : Step) : Change m action (m.step action) := by
  cases action
  case advance ms => exact .advanced ms _ (by split <;> omega)
  case restart => exact .stopped
  case schedule uuid =>
    simp only [Machine.step]
    split
    next hidle => exact .started uuid hidle
    next => exact .unchanged _
  all_goals
    simp only [Machine.step]
    split
    next => exact .unchanged _
    next running hrunning => exact resume_change hrunning _

end Talos.Worker
