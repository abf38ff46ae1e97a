import Mathlib.Data.List.Basic
import Talos.Transition.Run

/-!
# Snapshots after patches

Every patch run asks for a snapshot of the device. One flag says that a snapshot is being
collected. A request that finds it set leaves a note in a second flag, and the request
that leaves the first note starts a watcher, which collects a snapshot as soon as the
first flag is free. Other tasks collect snapshots under the first flag too.

A task is a place in the code, and a run is any interleaving of the accesses to the two
flags. At most one task is collecting, and when no request and no task that a request has
started is left running, every request has been followed by a collection.
-/

namespace Talos.Snapshot

open Transition

/-- `snapshot_in_progress` and `pending_patch_snapshot`. -/
structure Flags where
  inProgress : Bool
  pending : Bool
deriving DecidableEq

/-- What a task does next. -/
inductive Point where
  | compareExchange | swap | load | clear
  | spawnPost | spawnWatcher
  | refresh | collect | collecting | release
  | wait | returned
deriving DecidableEq

inductive Role where
  | request | post | watcher | queue | sender | scan
deriving DecidableEq

/-- The flags after a step of a task, where the task goes on and what it has started. -/
structure Effect where
  flags : Flags
  next : Point
  spawned : Option Role

section Code

variable (flags : Flags)

def Flags.goto (next : Point) : Effect := ⟨flags, next, none⟩

def Flags.compareExchange (won lost : Point) : Effect :=
  if flags.inProgress then flags.goto lost else { flags with inProgress := true }.goto won

/-- A collection, whether it succeeds or not, and the release of the flag. -/
def Flags.collect (released : Point) : Point → Effect
  | .collect => flags.goto .collecting
  | .collecting => flags.goto .release
  | .release => { flags with inProgress := false }.goto released
  | point => flags.goto point

def requestSnapshotAfterPatch : Point → Effect
  | .compareExchange => flags.compareExchange .spawnPost .swap
  | .swap =>
    { flags with pending := true }.goto (if flags.pending then .returned else .spawnWatcher)
  | .spawnWatcher => ⟨flags, .returned, some .watcher⟩
  | .spawnPost => ⟨flags, .returned, some .post⟩
  | point => flags.goto point

/-- The task of `spawn_post_patch_snapshot`. -/
def postPatchSnapshot : Point → Effect
  | .load => flags.goto (if flags.pending then .spawnWatcher else .returned)
  | .spawnWatcher => ⟨flags, .returned, some .watcher⟩
  | point => flags.collect .load point

/-- The task of `spawn_pending_patch_snapshot_watcher`. -/
def pendingPatchSnapshotWatcher : Point → Effect
  | .load => flags.goto (if flags.pending then .compareExchange else .returned)
  | .compareExchange => flags.compareExchange .clear .wait
  | .clear => { flags with pending := false }.goto .collect
  | .wait => flags.goto .load
  | point => flags.collect .load point

def collectAndQueueFullSnapshot (closed : Bool) : Point → Effect
  | .compareExchange => flags.compareExchange .collect .wait
  | .wait => flags.goto (if closed then .returned else .compareExchange)
  | point => flags.collect .returned point

/-- The task of `start_unix_snapshot_sender`; on Windows the sender calls
`collect_and_queue_full_snapshot`. -/
def unixSnapshotSender (closed : Bool) : Point → Effect
  | .compareExchange => flags.compareExchange .collect .wait
  | .wait => flags.goto .compareExchange
  | point => flags.collect (if closed then .returned else .wait) point

/-- `run_patch_scan_action`, which collects nothing if the metadata cannot be refreshed. -/
def runPatchScanAction (refreshed : Bool) : Point → Effect
  | .compareExchange => flags.compareExchange .refresh .wait
  | .wait => flags.goto .compareExchange
  | .refresh => flags.goto (if refreshed then .collect else .release)
  | point => postPatchSnapshot flags point

end Code

/-! ## Runs -/

structure Task where
  role : Role
  point : Point
deriving DecidableEq

/-- One step; `choice` settles what the flags leave open. -/
def Task.advance (task : Task) (flags : Flags) (choice : Bool) : Effect :=
  match task.role with
  | .request => requestSnapshotAfterPatch flags task.point
  | .post => postPatchSnapshot flags task.point
  | .watcher => pendingPatchSnapshotWatcher flags task.point
  | .queue => collectAndQueueFullSnapshot flags choice task.point
  | .sender => unixSnapshotSender flags choice task.point
  | .scan => runPatchScanAction flags choice task.point

def Role.begin : Role → Task
  | .post => ⟨.post, .collect⟩
  | .watcher => ⟨.watcher, .load⟩
  | role => ⟨role, .compareExchange⟩

variable (effect : Effect) (task : Task)

def Effect.after : List Task :=
  ⟨task.role, effect.next⟩ :: effect.spawned.toList.map Role.begin

/-- A request has accessed the flags for the last time, or a collection starts. -/
inductive Entry where
  | called (task : ℕ)
  | collects (task : ℕ)
deriving DecidableEq

/-- The step is the last access of a request to the flags. -/
def Effect.calls : Bool :=
  task.role = .request && (task.point = .swap || effect.next = .spawnPost)

def Effect.starts : Bool :=
  task.point = .collect && effect.next = .collecting

def Effect.entries (i : ℕ) (task : Task) : List Entry :=
  (if effect.calls task then [.called i] else []) ++
    if effect.starts task then [.collects i] else []

/-- The tasks, and what they have done, the latest first. -/
structure State where
  flags : Flags
  tasks : List Task
  log : List Entry

def State.start : State := ⟨⟨false, false⟩, [], []⟩

inductive Action where
  | call
  | queue
  | sender
  | scan
  | advance (task : ℕ) (choice : Bool)

def State.add (s : State) (role : Role) : State := { s with tasks := s.tasks ++ [role.begin] }

def step (s : State) : Action → State
  | .call => s.add .request
  | .queue => s.add .queue
  | .sender => s.add .sender
  | .scan => s.add .scan
  | .advance i choice =>
    match s.tasks[i]? with
    | none => s
    | some task =>
      let effect := task.advance s.flags choice
      ⟨effect.flags,
        s.tasks.set i ⟨task.role, effect.next⟩ ++ effect.spawned.toList.map Role.begin,
        effect.entries i task ++ s.log⟩

/-- A collection has started since the request last accessed the flags. -/
def FollowedUp (log : List Entry) (i : ℕ) : Prop :=
  ∃ later earlier, log = later ++ .called i :: earlier ∧ ∃ j, .collects j ∈ later

/-- No request is under way, and nothing that requests have started. -/
def Settled (s : State) : Prop :=
  ∀ task ∈ s.tasks, task.role ∈ [.request, .post, .watcher] → task.point = .returned

/-! ## One step of a task -/

def Point.holds : Point → Bool
  | .spawnPost | .clear | .refresh | .collect | .collecting | .release => true
  | _ => false

/-- The task takes care of a note: it is a watcher, or will start one. -/
def Task.carries : Bool :=
  (task.role = .request && task.point = .spawnWatcher) ||
    (task.role = .watcher && task.point ≠ .returned)

/-- The task collects next, for a request. -/
def Task.starting : Bool :=
  (task.role = .request && task.point = .spawnPost) ||
    (task.role ∈ [.post, .watcher] && task.point = .collect)

/-- What one step of a task does with the flags, the note and the collections. -/
structure Effect.Keeps (effect : Effect) (task : Task) (flags : Flags) : Prop where
  holds : (task.point.holds = true → flags.inProgress = true) →
    effect.flags.inProgress.toNat + task.point.holds.toNat =
      flags.inProgress.toNat + (effect.after task).countP (·.point.holds)
  carries : effect.flags.pending = true → flags.pending = false ∨ task.carries →
    ∃ other ∈ effect.after task, other.carries
  /-- A note goes only when its watcher collects next. -/
  pending : flags.pending = true →
    effect.flags.pending = true ∨ ∃ other ∈ effect.after task, other.starting
  starting : task.starting → effect.starts task ∨ ∃ other ∈ effect.after task, other.starting
  calls : effect.calls task →
    effect.flags.pending = true ∨ ∃ other ∈ effect.after task, other.starting
  returned : task.role = .request → effect.next ∉ [.compareExchange, .swap] →
    effect.calls task ∨ task.point ∉ [.compareExchange, .swap]
  spawned : ∀ other ∈ effect.spawned.toList.map Role.begin, other.role ≠ .request

/-- The tasks, their places and the flags are gone through one by one. -/
theorem keeps_advance (task : Task) (flags : Flags) (choice : Bool) :
    (task.advance flags choice).Keeps task flags := by
  obtain ⟨role, point⟩ := task
  obtain ⟨inProgress, pending⟩ := flags
  constructor <;> revert inProgress pending choice <;> cases role <;> cases point <;> decide

/-- Nothing is left to do for a request. -/
theorem settled_not_busy {task : Task}
    (hreturned : task.role ∈ [.request, .post, .watcher] → task.point = .returned) :
    ¬task.carries ∧ ¬task.starting := by
  revert hreturned
  obtain ⟨role, point⟩ := task
  cases role <;> cases point <;> decide

/-! ## Runs keep the flags and the tasks in step -/

structure Coherent (s : State) : Prop where
  exclusive : s.tasks.countP (·.point.holds) = s.flags.inProgress.toNat
  carried : s.flags.pending = true → ∃ task ∈ s.tasks, task.carries
  called : ∀ (i : ℕ) (task : Task), s.tasks[i]? = some task → task.role = .request →
    task.point ∉ [.compareExchange, .swap] → .called i ∈ s.log
  covered : ∀ i, .called i ∈ s.log →
    s.flags.pending = true ∨ (∃ task ∈ s.tasks, task.starting) ∨ FollowedUp s.log i

theorem coherent_start : Coherent .start where
  exclusive := rfl
  carried hpending := nomatch hpending
  called _ _ htask := nomatch htask
  covered _ hcalled := nomatch hcalled

theorem FollowedUp.append {log : List Entry} {i : ℕ} (hfollowed : FollowedUp log i)
    (entries : List Entry) : FollowedUp (entries ++ log) i := by
  obtain ⟨later, earlier, rfl, j, hj⟩ := hfollowed
  exact ⟨entries ++ later, earlier, by simp, j, List.mem_append_right _ hj⟩

theorem followedUp_of_collects {entries log : List Entry} {i j : ℕ} (hcalled : .called i ∈ log)
    (hcollects : .collects j ∈ entries) : FollowedUp (entries ++ log) i := by
  obtain ⟨later, earlier, rfl⟩ := List.append_of_mem hcalled
  exact ⟨entries ++ later, earlier, by simp, j, List.mem_append_left _ hcollects⟩

theorem getElem?_append_cases {tasks added : List Task} {i : ℕ} {task : Task}
    (htask : (tasks ++ added)[i]? = some task) : tasks[i]? = some task ∨ task ∈ added := by
  rw [List.getElem?_append] at htask
  split at htask
  · exact .inl htask
  · exact .inr (List.mem_of_getElem? htask)

theorem Coherent.add {s : State} (hs : Coherent s) {role : Role} (hrole : role ≠ .post) :
    Coherent (s.add role) where
  exclusive := by
    rw [State.add, List.countP_append, hs.exclusive]
    cases role with
    | post => exact absurd rfl hrole
    | _ => rfl
  carried hpending := by
    obtain ⟨task, hmem, hcarries⟩ := hs.carried hpending
    exact ⟨task, List.mem_append_left _ hmem, hcarries⟩
  called i task htask hrequest hpoint := by
    rcases getElem?_append_cases htask with hold | hnew
    · exact hs.called i task hold hrequest hpoint
    · cases List.mem_singleton.mp hnew
      cases role with
      | request => exact absurd List.mem_cons_self hpoint
      | _ => exact nomatch hrequest
  covered i hcalled := by
    rcases hs.covered i hcalled with hpending | ⟨task, hmem, hstarting⟩ | hfollowed
    · exact .inl hpending
    · exact .inr (.inl ⟨task, List.mem_append_left _ hmem, hstarting⟩)
    · exact .inr (.inr hfollowed)

section Step

variable {s : State} {i : ℕ} {task : Task} {choice : Bool}

theorem step_advance (htask : s.tasks[i]? = some task) :
    step s (.advance i choice) = ⟨(task.advance s.flags choice).flags,
      s.tasks.set i ⟨task.role, (task.advance s.flags choice).next⟩ ++
        (task.advance s.flags choice).spawned.toList.map Role.begin,
      (task.advance s.flags choice).entries i task ++ s.log⟩ := by
  simp only [step, htask]

variable (htask : s.tasks[i]? = some task)

include htask

theorem mem_step_of_mem_after {other : Task}
    (hother : other ∈ (task.advance s.flags choice).after task) :
    other ∈ (step s (.advance i choice)).tasks := by
  rw [step_advance htask]
  rcases List.mem_cons.mp hother with rfl | hspawned
  · exact List.mem_append_left _ (List.mem_set (List.getElem?_eq_some_iff.mp htask).1 _)
  · exact List.mem_append_right _ hspawned

/-- What some task has, some task has after the step, if the task that advances hands it
on. -/
theorem exists_mem_step {Q : Task → Prop} (hsome : ∃ other ∈ s.tasks, Q other)
    (hkept : Q task → ∃ other ∈ (task.advance s.flags choice).after task, Q other) :
    ∃ other ∈ (step s (.advance i choice)).tasks, Q other := by
  obtain ⟨other, hmem, hother⟩ := hsome
  obtain ⟨j, hj⟩ := List.mem_iff_getElem?.mp hmem
  by_cases hij : i = j
  · subst hij
    cases htask.symm.trans hj
    obtain ⟨kept, hmem, hkept⟩ := hkept hother
    exact ⟨kept, mem_step_of_mem_after htask hmem, hkept⟩
  · refine ⟨other, ?_, hother⟩
    rw [step_advance htask]
    exact List.mem_append_left _ (List.mem_of_getElem? ((List.getElem?_set_ne hij).trans hj))

theorem Coherent.exclusive_advance (hs : Coherent s) :
    (step s (.advance i choice)).tasks.countP (·.point.holds) =
      (step s (.advance i choice)).flags.inProgress.toNat := by
  obtain ⟨hlt, hget⟩ := List.getElem?_eq_some_iff.mp htask
  have hexclusive := hs.exclusive
  have hpos : task.point.holds = true → 0 < s.flags.inProgress.toNat := fun hholds =>
    hexclusive ▸ List.countP_pos_iff.mpr ⟨task, List.mem_of_getElem? htask, hholds⟩
  have hbalance := (keeps_advance task s.flags choice).holds fun hholds => by
    simpa [Nat.pos_iff_ne_zero] using hpos hholds
  rw [step_advance htask]
  simp only [List.countP_append, List.countP_set hlt, hget, hexclusive]
  rw [Effect.after, List.countP_cons] at hbalance
  cases hholds : task.point.holds with
  | false =>
    simp only [hholds, Bool.toNat_false, Bool.false_eq_true, if_false] at hbalance ⊢
    omega
  | true =>
    have := hpos hholds
    simp only [hholds, Bool.toNat_true, if_true] at hbalance ⊢
    omega

theorem Coherent.covered_advance (hs : Coherent s) {j : ℕ}
    (hcalled : .called j ∈ (task.advance s.flags choice).entries i task ++ s.log) :
    (task.advance s.flags choice).flags.pending = true ∨
      (∃ other ∈ (step s (.advance i choice)).tasks, other.starting) ∨
      FollowedUp ((task.advance s.flags choice).entries i task ++ s.log) j := by
  have hafter : (∃ other ∈ (task.advance s.flags choice).after task, other.starting) →
      ∃ other ∈ (step s (.advance i choice)).tasks, other.starting := by
    rintro ⟨other, hmem, hstarting⟩
    exact ⟨other, mem_step_of_mem_after htask hmem, hstarting⟩
  rcases List.mem_append.mp hcalled with hnew | hold
  · have hcalls : (task.advance s.flags choice).calls task = true := by
      simp only [Effect.entries, List.mem_append] at hnew
      rcases hnew with hcalls | hstarts
      · exact (List.mem_ite_nil_right.mp hcalls).1
      · simp at hstarts
    exact ((keeps_advance task s.flags choice).calls hcalls).imp_right fun h => .inl (hafter h)
  · rcases hs.covered j hold with hpending | hstarting | hfollowed
    · exact ((keeps_advance task s.flags choice).pending hpending).imp_right fun h =>
        .inl (hafter h)
    · by_cases hstarts : (task.advance s.flags choice).starts task = true
      · refine .inr (.inr (followedUp_of_collects (j := i) hold ?_))
        exact List.mem_append_right _ (by rw [if_pos hstarts]; exact List.mem_singleton_self _)
      · refine .inr (.inl (exists_mem_step htask hstarting fun hstarting => ?_))
        exact ((keeps_advance task s.flags choice).starting hstarting).resolve_left hstarts
    · exact .inr (.inr (hfollowed.append _))

theorem Coherent.called_advance (hs : Coherent s) {j : ℕ} {other : Task}
    (hother : (step s (.advance i choice)).tasks[j]? = some other)
    (hrequest : other.role = .request) (hpoint : other.point ∉ [.compareExchange, .swap]) :
    .called j ∈ (task.advance s.flags choice).entries i task ++ s.log := by
  rw [step_advance htask] at hother
  rcases getElem?_append_cases hother with hset | hspawned
  · by_cases hij : i = j
    · subst hij
      rw [List.getElem?_set_self (List.getElem?_eq_some_iff.mp htask).1] at hset
      cases hset
      rcases (keeps_advance task s.flags choice).returned hrequest hpoint with hcalls | hbefore
      · refine List.mem_append_left _ (List.mem_append_left _ ?_)
        rw [if_pos hcalls]
        exact List.mem_singleton_self _
      · exact List.mem_append_right _ (hs.called i task htask hrequest hbefore)
    · rw [List.getElem?_set_ne hij] at hset
      exact List.mem_append_right _ (hs.called j other hset hrequest hpoint)
  · exact absurd hrequest ((keeps_advance task s.flags choice).spawned other hspawned)

theorem Coherent.advance (hs : Coherent s) : Coherent (step s (.advance i choice)) where
  exclusive := hs.exclusive_advance htask
  carried hpending := by
    rw [step_advance htask] at hpending
    have hcarries := (keeps_advance task s.flags choice).carries hpending
    by_cases hbefore : s.flags.pending = true
    · exact exists_mem_step htask (hs.carried hbefore) fun htask => hcarries (.inr htask)
    · obtain ⟨other, hmem, hother⟩ := hcarries (.inl (by simpa using hbefore))
      exact ⟨other, mem_step_of_mem_after htask hmem, hother⟩
  called j other hother hrequest hpoint := by
    have hcalled := hs.called_advance htask hother hrequest hpoint
    rw [step_advance htask]
    exact hcalled
  covered j hcalled := by
    have hcovered := @covered_advance s i task choice htask hs j
    rw [step_advance htask] at hcalled hcovered ⊢
    exact hcovered hcalled

end Step

theorem Coherent.step {s : State} (hs : Coherent s) (a : Action) : Coherent (step s a) := by
  cases a with
  | call | queue | sender | scan => exact hs.add (by decide)
  | advance i choice =>
    cases htask : s.tasks[i]? with
    | none => simpa only [Snapshot.step, htask] using hs
    | some task => exact hs.advance htask

/-- At most one snapshot is being collected, and once nothing is left running every request
has been followed by a collection. -/
theorem requests_followed_by_snapshots (actions : List Action) :
    (run step .start actions).tasks.countP (·.point = .collecting) ≤ 1 ∧
      (Settled (run step .start actions) →
        ∀ (i : ℕ) (task : Task), (run step .start actions).tasks[i]? = some task →
          task.role = .request → FollowedUp (run step .start actions).log i) := by
  have hs : Coherent (run step .start actions) :=
    run_invariant (fun _ a hs => hs.step a) coherent_start actions
  generalize run step .start actions = s at hs ⊢
  constructor
  · calc s.tasks.countP (·.point = .collecting) ≤ s.tasks.countP (·.point.holds) := by
          refine List.countP_mono_left fun task _ hcollecting => ?_
          rw [of_decide_eq_true hcollecting]
          rfl
      _ = s.flags.inProgress.toNat := hs.exclusive
      _ ≤ 1 := Bool.toNat_le _
  · intro hsettled i task htask hrequest
    have hreturned := hsettled task (List.mem_of_getElem? htask) (by simp [hrequest])
    have hcalled := hs.called i task htask hrequest (by simp [hreturned])
    rcases hs.covered i hcalled with hpending | ⟨other, hmem, hstarting⟩ | hfollowed
    · obtain ⟨other, hmem, hcarries⟩ := hs.carried hpending
      exact absurd hcarries (settled_not_busy (hsettled other hmem)).1
    · exact absurd hstarting (settled_not_busy (hsettled other hmem)).2
    · exact hfollowed

/-- The second of two requests finds the flag set and leaves a note. -/
def twoRequests : List Action :=
  [.call, .call] ++ [0, 1, 1, 0, 1, 2, 2, 2, 2, 2, 3, 3, 3, 3, 3, 3, 3, 4].map (.advance · false)

theorem requests_followed_by_snapshots_two : Settled (run step .start twoRequests) ∧
      FollowedUp (run step .start twoRequests).log 0 ∧
      FollowedUp (run step .start twoRequests).log 1 := by
  have hsettled : Settled (run step .start twoRequests) := by
    unfold Settled
    decide
  have hfollowed := (requests_followed_by_snapshots twoRequests).2 hsettled
  exact ⟨hsettled, hfollowed 0 ⟨.request, .returned⟩ rfl rfl,
    hfollowed 1 ⟨.request, .returned⟩ rfl rfl⟩

end Talos.Snapshot
