import Talos.Interactive.Program
import Talos.Transition.Run

/-!
# Programs that share a memory

A pool of programs over one memory. A program is started for some work at any time, and
whichever program is picked performs its next operation on the memory, so a run of the
pool is any interleaving of the programs, operation by operation. A program that is
never picked again has crashed. What the memory does not answer itself comes from
outside, with the step; the memory may also change by itself.

A task remembers the operations it has performed. `Sound Q` says that the past of every
task obeys `Q` and its future is safe, which holds in every run as soon as every program
is safe when it starts.
-/

namespace Interactive

open Program Transition

structure Task (W : Type) {Op : Type} (Ans : Op → Type) (ε α : Type) where
  work : W
  history : List (Event Ans)
  rest : Program Ans ε α

structure Pool (M W : Type) {Op : Type} (Ans : Op → Type) (ε α : Type) where
  memory : M
  tasks : List (Task W Ans ε α)

/-- The programs and the memory: `O` is what comes from outside with an operation and
`I` are the changes that the memory makes by itself. -/
structure System (M W O I : Type) {Op : Type} (Ans : Op → Type) (ε α : Type) where
  program : W → Program Ans ε α
  perform : O → M → (op : Op) → Ans op × M
  internal : I → M → M

inductive Action (W O I : Type) where
  | start (work : W)
  | advance (task : ℕ) (outside : O)
  | internal (change : I)

variable {M W O I Op : Type} {Ans : Op → Type} {ε α : Type}

def Program.head? : Program Ans ε α → Option Op
  | .done _ => none
  | .call op _ => some op

variable {op : Op}

theorem Program.head?_eq_some {p : Program Ans ε α} (hhead : p.head? = some op) :
    ∃ next, p = .call op next := by
  cases p with
  | done outcome => exact nomatch hhead
  | call first next =>
    cases hhead
    exact ⟨next, rfl⟩

def Task.answered (task : Task W Ans ε α) (op : Op) (answer : Ans op)
    (next : Ans op → Program Ans ε α) : Task W Ans ε α :=
  ⟨task.work, task.history ++ [⟨op, answer⟩], next answer⟩

/-- The past of the task obeys `Q`, and so does whatever it will do. -/
structure Task.Sound (Q : W → List (Event Ans) → Op → Prop) (task : Task W Ans ε α) : Prop where
  past : Obeys (Q task.work) task.history
  future : Safe (Q task.work) task.history task.rest fun _ _ => True

variable {Q : W → List (Event Ans) → Op → Prop} {task : Task W Ans ε α}

theorem Task.Sound.next (hsound : task.Sound Q) {next : Ans op → Program Ans ε α}
    (hrest : task.rest = .call op next) : Q task.work task.history op := by
  have hfuture := hsound.future
  rw [hrest] at hfuture
  exact hfuture.1

theorem Task.Sound.answered (hsound : task.Sound Q) {next : Ans op → Program Ans ε α}
    (hrest : task.rest = .call op next) (answer : Ans op) :
    (task.answered op answer next).Sound Q := by
  have hfuture := hsound.future
  rw [hrest] at hfuture
  exact ⟨throughout_concat_iff.mpr ⟨hsound.past, hfuture.1⟩, hfuture.2 answer⟩

/-- However the task goes on, it ends with `R`. -/
def Task.Ends (R : W → List (Event Ans) → Except ε α → Prop) (task : Task W Ans ε α) : Prop :=
  Safe (fun _ _ => True) task.history task.rest (R task.work)

theorem Task.Ends.done {R : W → List (Event Ans) → Except ε α → Prop} (hends : task.Ends R)
    {outcome : Except ε α} (hrest : task.rest = .done outcome) :
    R task.work task.history outcome := by
  rw [Task.Ends, hrest] at hends
  exact hends

/-- What the tasks of a pool have generated, by the answers that `key` picks out. -/
def Task.keys {κ : Type} (key : Event Ans → Option κ) (task : Task W Ans ε α) : List κ :=
  task.history.filterMap key

namespace System

variable (sys : System M W O I Ans ε α)

def begin (work : W) : Task W Ans ε α := ⟨work, [], sys.program work⟩

def step (p : Pool M W Ans ε α) : Action W O I → Pool M W Ans ε α
  | .start work => { p with tasks := p.tasks ++ [sys.begin work] }
  | .advance i outside =>
    match p.tasks[i]? with
    | none => p
    | some task =>
      match task.rest with
      | .done _ => p
      | .call op next =>
        let result := sys.perform outside p.memory op
        ⟨result.2, p.tasks.set i (task.answered op result.1 next)⟩
  | .internal change => { p with memory := sys.internal change p.memory }

def performed (p : Pool M W Ans ε α) : Action W O I → Option (Event Ans)
  | .advance i outside =>
    p.tasks[i]?.bind fun task =>
      match task.rest with
      | .done _ => none
      | .call op _ => some ⟨op, (sys.perform outside p.memory op).1⟩
  | _ => none

/-- Where a task of the pool after a step comes from. -/
inductive Origin (p : Pool M W Ans ε α) : Action W O I → ℕ → Task W Ans ε α → Prop
  | kept {a : Action W O I} {i : ℕ} {task : Task W Ans ε α} (hold : p.tasks[i]? = some task) :
      Origin p a i task
  | begun (work : W) : Origin p (.start work) p.tasks.length (sys.begin work)
  | answered {i : ℕ} {outside : O} {old : Task W Ans ε α} {op : Op}
      {next : Ans op → Program Ans ε α} (hold : p.tasks[i]? = some old)
      (hrest : old.rest = .call op next) :
      Origin p (.advance i outside) i (old.answered op (sys.perform outside p.memory op).1 next)

variable {sys} {p : Pool M W Ans ε α}

variable {i : ℕ} {outside : O}

theorem step_advance {next : Ans op → Program Ans ε α} (htask : p.tasks[i]? = some task)
    (hrest : task.rest = .call op next) : sys.step p (.advance i outside) =
      ⟨(sys.perform outside p.memory op).2,
        p.tasks.set i (task.answered op (sys.perform outside p.memory op).1 next)⟩ := by
  simp only [step, htask, hrest]

theorem performed_advance {next : Ans op → Program Ans ε α} (htask : p.tasks[i]? = some task)
    (hrest : task.rest = .call op next) :
    sys.performed p (.advance i outside) = some ⟨op, (sys.perform outside p.memory op).1⟩ := by
  simp only [performed, htask, Option.bind_some, hrest]

theorem step_advance_cases (sys : System M W O I Ans ε α) (p : Pool M W Ans ε α) (i : ℕ)
    (outside : O) : sys.step p (.advance i outside) = p ∨
      ∃ task op next, p.tasks[i]? = some task ∧ task.rest = .call op next := by
  cases htask : p.tasks[i]? with
  | none => exact .inl (by simp only [step, htask])
  | some task =>
    cases hrest : task.rest with
    | done outcome => exact .inl (by simp only [step, htask, hrest])
    | call op next => exact .inr ⟨task, op, next, rfl, hrest⟩

variable {a : Action W O I}

theorem origin {j : ℕ} (htask : (sys.step p a).tasks[j]? = some task) : sys.Origin p a j task := by
  cases a with
  | start work =>
    rcases lt_trichotomy j p.tasks.length with hlt | rfl | hgt
    · rw [step, List.getElem?_append_left hlt] at htask
      exact .kept htask
    · rw [step, List.getElem?_concat_length] at htask
      cases htask
      exact .begun work
    · have hnone : (p.tasks ++ [sys.begin work])[j]? = none :=
        List.getElem?_eq_none (by simpa using Nat.succ_le_of_lt hgt)
      exact nomatch hnone.symm.trans htask
  | internal change => exact .kept htask
  | advance i outside =>
    rcases step_advance_cases sys p i outside with hsame | ⟨old, op, next, hold, hrest⟩
    · rw [hsame] at htask
      exact .kept htask
    · rw [step_advance hold hrest] at htask
      rcases eq_or_ne i j with rfl | hne
      · rw [List.getElem?_set_self (List.getElem?_eq_some_iff.mp hold).1] at htask
        cases htask
        exact .answered hold hrest
      · rw [List.getElem?_set_ne hne] at htask
        exact .kept htask

theorem work_step {j : ℕ} (htask : (sys.step p a).tasks[j]? = some task) :
    (∃ old, p.tasks[j]? = some old ∧ task.work = old.work) ∨
      (a = .start task.work ∧ j = p.tasks.length) := by
  cases origin htask with
  | kept hold => exact .inl ⟨task, hold, rfl⟩
  | begun work => exact .inr ⟨rfl, rfl⟩
  | answered hold hrest => exact .inl ⟨_, hold, rfl⟩

theorem ne_of_step_advance {next : Ans op → Program Ans ε α} (htask : p.tasks[i]? = some task)
    (hrest : task.rest = .call op next) :
    (sys.step p (.advance i outside)).tasks[i]? ≠ some task := by
  intro hsame
  rw [step_advance htask hrest, List.getElem?_set_self (List.getElem?_eq_some_iff.mp htask).1]
    at hsame
  have hlength := congrArg (fun task => task.history.length) (Option.some.inj hsame)
  simp [Task.answered] at hlength

/-- A task stays, with its work, and its past only grows. -/
theorem persists (sys : System M W O I Ans ε α) (a : Action W O I) {j : ℕ} {old : Task W Ans ε α}
    (hold : p.tasks[j]? = some old) :
    ∃ task, (sys.step p a).tasks[j]? = some task ∧ task.work = old.work ∧
      old.history <+: task.history := by
  have hlt := (List.getElem?_eq_some_iff.mp hold).1
  cases a with
  | start work =>
    exact ⟨old, by rw [step, List.getElem?_append_left hlt, hold], rfl, List.prefix_refl _⟩
  | internal change => exact ⟨old, hold, rfl, List.prefix_refl _⟩
  | advance i outside =>
    rcases step_advance_cases sys p i outside with hsame | ⟨task, op, next, htask, hrest⟩
    · exact ⟨old, by rw [hsame, hold], rfl, List.prefix_refl _⟩
    · rw [step_advance htask hrest]
      by_cases hij : i = j
      · subst hij
        cases hold.symm.trans htask
        exact ⟨_, List.getElem?_set_self hlt, rfl, List.prefix_append _ _⟩
      · exact ⟨old, by rw [List.getElem?_set_ne hij, hold], rfl, List.prefix_refl _⟩

/-! ## What has happened -/

def Happened (p : Pool M W Ans ε α) (event : Event Ans) : Prop :=
  ∃ task ∈ p.tasks, event ∈ task.history

/-- A step performs an operation of a task on the memory, lets the memory change by itself,
or leaves it alone. -/
theorem step_memory_cases (sys : System M W O I Ans ε α) (p : Pool M W Ans ε α) (a : Action W O I) :
    (sys.performed p a = none ∧ (sys.step p a).memory = p.memory) ∨
      (∃ i outside task op next, a = .advance i outside ∧ p.tasks[i]? = some task ∧
        task.rest = .call op next ∧
        sys.performed p a = some ⟨op, (sys.perform outside p.memory op).1⟩ ∧
        (sys.step p a).memory = (sys.perform outside p.memory op).2) ∨
      ∃ change, sys.performed p a = none ∧
        (sys.step p a).memory = sys.internal change p.memory := by
  cases a with
  | start work => exact .inl ⟨rfl, rfl⟩
  | internal change => exact .inr (.inr ⟨change, rfl, rfl⟩)
  | advance i outside =>
    cases htask : p.tasks[i]? with
    | none => exact .inl ⟨by simp only [performed, htask, Option.bind_none],
        by simp only [step, htask]⟩
    | some task =>
      cases hrest : task.rest with
      | done outcome => exact .inl ⟨by simp only [performed, htask, Option.bind_some, hrest],
          by simp only [step, htask, hrest]⟩
      | call op next =>
        refine .inr (.inl ⟨i, outside, task, op, next, rfl, htask, hrest,
          performed_advance htask hrest, ?_⟩)
        rw [step_advance htask hrest]

variable {event : Event Ans}

theorem exists_of_performed (h : sys.performed p a = some event) :
    ∃ i outside task next, a = .advance i outside ∧ p.tasks[i]? = some task ∧
      task.rest = .call event.op next := by
  rcases step_memory_cases sys p a with ⟨hnone, _⟩ |
    ⟨i, outside, task, op, next, ha, htask, hrest, hperformed, _⟩ | ⟨_, hnone, _⟩
  · exact nomatch hnone.symm.trans h
  · cases hperformed.symm.trans h
    exact ⟨i, outside, task, next, ha, htask, hrest⟩
  · exact nomatch hnone.symm.trans h

theorem memory_step {R : M → Option (Event Ans) → M → Prop} (hrefl : ∀ m, R m none m)
    (hperform : ∀ outside m op,
      R m (some ⟨op, (sys.perform outside m op).1⟩) (sys.perform outside m op).2)
    (hinternal : ∀ change m, R m none (sys.internal change m)) (p : Pool M W Ans ε α)
    (a : Action W O I) : R p.memory (sys.performed p a) (sys.step p a).memory := by
  rcases step_memory_cases sys p a with ⟨hperformed, hmemory⟩ |
    ⟨i, outside, task, op, next, -, -, -, hperformed, hmemory⟩ | ⟨change, hperformed, hmemory⟩
  · rw [hperformed, hmemory]
    exact hrefl _
  · rw [hperformed, hmemory]
    exact hperform _ _ _
  · rw [hperformed, hmemory]
    exact hinternal _ _

theorem happened_step (h : Happened (sys.step p a) event) :
    Happened p event ∨ sys.performed p a = some event := by
  obtain ⟨task, hmem, hevent⟩ := h
  obtain ⟨j, htask⟩ := List.mem_iff_getElem?.mp hmem
  cases origin htask with
  | kept hold => exact .inl ⟨task, List.mem_of_getElem? hold, hevent⟩
  | begun work => exact nomatch hevent
  | answered hold hrest =>
    rcases List.mem_append.mp hevent with hevent | hevent
    · exact .inl ⟨_, List.mem_of_getElem? hold, hevent⟩
    · cases List.mem_singleton.mp hevent
      exact .inr (performed_advance hold hrest)

theorem Happened.step (h : Happened p event) (sys : System M W O I Ans ε α) (a : Action W O I) :
    Happened (sys.step p a) event := by
  obtain ⟨task, hmem, hevent⟩ := h
  obtain ⟨j, htask⟩ := List.mem_iff_getElem?.mp hmem
  obtain ⟨later, hlater, _, hpre⟩ := persists sys a htask
  exact ⟨later, List.mem_of_getElem? hlater, hpre.subset hevent⟩

theorem mem_history_of_performed (h : sys.performed p (.advance i outside) = some event) :
    ∃ task, (sys.step p (.advance i outside)).tasks[i]? = some task ∧ event ∈ task.history := by
  rcases step_memory_cases sys p (.advance i outside) with ⟨hnone, _⟩ |
    ⟨_, _, task, op, next, ha, htask, hrest, hperformed, _⟩ | ⟨_, hnone, _⟩
  · exact nomatch hnone.symm.trans h
  · cases ha
    cases hperformed.symm.trans h
    have hlt := (List.getElem?_eq_some_iff.mp htask).1
    rw [step_advance htask hrest]
    exact ⟨_, List.getElem?_set_self hlt, List.mem_append_right _ List.mem_cons_self⟩
  · exact nomatch hnone.symm.trans h

theorem happened_of_performed (h : sys.performed p a = some event) :
    Happened (sys.step p a) event := by
  cases a with
  | start work => exact nomatch h
  | internal change => exact nomatch h
  | advance i outside =>
    obtain ⟨task, htask, hevent⟩ := mem_history_of_performed h
    exact ⟨task, List.mem_of_getElem? htask, hevent⟩

/-! ## Runs -/

theorem persists_run (sys : System M W O I Ans ε α) (as : List (Action W O I)) {j : ℕ}
    {old : Task W Ans ε α} (hold : p.tasks[j]? = some old) :
    ∃ task, (run sys.step p as).tasks[j]? = some task ∧ old.history <+: task.history := by
  induction as generalizing p old with
  | nil => exact ⟨old, hold, List.prefix_refl _⟩
  | cons a as ih =>
    obtain ⟨next, hnext, _, hpre⟩ := persists sys a hold
    obtain ⟨task, htask, hpre'⟩ := ih hnext
    exact ⟨task, htask, hpre.trans hpre'⟩

def PerformedBy (sys : System M W O I Ans ε α) (p : Pool M W Ans ε α) (as : List (Action W O I))
    (i : ℕ) (outside : O) (q : Pool M W Ans ε α) (event : Event Ans) : Prop :=
  ∃ before later, as = before ++ .advance i outside :: later ∧ q = run sys.step p before ∧
    sys.performed q (.advance i outside) = some event

theorem PerformedBy.mem_history {as : List (Action W O I)} {q : Pool M W Ans ε α}
    (h : sys.PerformedBy p as i outside q event) :
    ∃ task, (run sys.step p as).tasks[i]? = some task ∧ event ∈ task.history := by
  obtain ⟨before, later, rfl, rfl, hperformed⟩ := h
  rw [run_append, run_cons]
  obtain ⟨old, hold, hevent⟩ := mem_history_of_performed hperformed
  obtain ⟨task, htask, hpre⟩ := persists_run sys later hold
  exact ⟨task, htask, hpre.subset hevent⟩

theorem performedBy_of_mem {as : List (Action W O I)}
    (htask : (run sys.step p as).tasks[i]? = some task) (hevent : event ∈ task.history)
    (hnew : ∀ old, p.tasks[i]? = some old → event ∉ old.history) :
    ∃ outside q, sys.PerformedBy p as i outside q event := by
  induction as using List.reverseRecOn generalizing task with
  | nil => exact absurd hevent (hnew task htask)
  | append_singleton as a ih =>
    have hearlier : ∀ {old : Task W Ans ε α}, (run sys.step p as).tasks[i]? = some old →
        event ∈ old.history → ∃ outside q, sys.PerformedBy p (as ++ [a]) i outside q event := by
      intro old hold hevent
      obtain ⟨outside, q, before, later, rfl, hq⟩ := ih hold hevent
      exact ⟨outside, q, before, later ++ [a], by simp, hq⟩
    rw [run_append] at htask
    cases origin htask with
    | kept hold => exact hearlier hold hevent
    | begun work => exact nomatch hevent
    | answered hold hrest =>
      rcases List.mem_append.mp hevent with hevent | hevent
      · exact hearlier hold hevent
      · refine ⟨_, _, as, [], rfl, rfl, ?_⟩
        rw [performed_advance hold hrest, List.mem_singleton.mp hevent]

/-! ## What every task obeys -/

theorem sound_step (hprograms : ∀ work, Safe (Q work) [] (sys.program work) fun _ _ => True)
    (hsound : ∀ task ∈ p.tasks, task.Sound Q) (a : Action W O I) :
    ∀ task ∈ (sys.step p a).tasks, task.Sound Q := by
  intro task hmem
  obtain ⟨j, htask⟩ := List.mem_iff_getElem?.mp hmem
  cases origin htask with
  | kept hold => exact hsound task (List.mem_of_getElem? hold)
  | begun work => exact ⟨throughout_nil, hprograms work⟩
  | answered hold hrest => exact (hsound _ (List.mem_of_getElem? hold)).answered hrest _

theorem ends_step {R : W → List (Event Ans) → Except ε α → Prop}
    (hprograms : ∀ work, Safe (fun _ _ => True) [] (sys.program work) (R work))
    (hends : ∀ task ∈ p.tasks, task.Ends R) (a : Action W O I) :
    ∀ task ∈ (sys.step p a).tasks, task.Ends R := by
  intro task hmem
  obtain ⟨j, htask⟩ := List.mem_iff_getElem?.mp hmem
  cases origin htask with
  | kept hold => exact hends task (List.mem_of_getElem? hold)
  | begun work => exact hprograms work
  | answered hold hrest =>
    have hold := hends _ (List.mem_of_getElem? hold)
    rw [Task.Ends, hrest] at hold
    exact hold.2 _

/-! ## The order of what has happened -/

/-- A pool with what its tasks have done, the latest first. -/
structure Observed (M W : Type) {Op : Type} (Ans : Op → Type) (ε α : Type) where
  pool : Pool M W Ans ε α
  log : List (ℕ × Event Ans)

section Observe

variable (sys)

def acted (p : Pool M W Ans ε α) : Action W O I → Option (ℕ × Event Ans)
  | .advance i outside => (sys.performed p (.advance i outside)).map (i, ·)
  | _ => none

variable (s : Observed M W Ans ε α)

def observe (a : Action W O I) : Observed M W Ans ε α :=
  ⟨sys.step s.pool a, (sys.acted s.pool a).toList ++ s.log⟩

variable {sys} in
theorem observe_advance {s : Observed M W Ans ε α} {next : Ans op → Program Ans ε α}
    (htask : s.pool.tasks[i]? = some task) (hrest : task.rest = .call op next) :
    sys.observe s (.advance i outside) = ⟨⟨(sys.perform outside s.pool.memory op).2,
      s.pool.tasks.set i (task.answered op (sys.perform outside s.pool.memory op).1 next)⟩,
      (i, ⟨op, (sys.perform outside s.pool.memory op).1⟩) :: s.log⟩ := by
  rw [observe, step_advance htask hrest, acted, performed_advance htask hrest]
  rfl

/-- A step leaves the log and the tasks that are there alone, or one task performs its
next operation. -/
theorem observe_cases (a : Action W O I) :
    ((sys.observe s a).log = s.log ∧ ((sys.observe s a).pool.memory = s.pool.memory ∨
          ∃ change, (sys.observe s a).pool.memory = sys.internal change s.pool.memory) ∧
        ∀ (i : ℕ) (task : Task W Ans ε α), s.pool.tasks[i]? = some task →
          (sys.observe s a).pool.tasks[i]? = some task) ∨
      ∃ i outside task op next, a = .advance i outside ∧ s.pool.tasks[i]? = some task ∧
        task.rest = .call op next ∧
        sys.observe s a = ⟨⟨(sys.perform outside s.pool.memory op).2,
          s.pool.tasks.set i (task.answered op (sys.perform outside s.pool.memory op).1 next)⟩,
          (i, ⟨op, (sys.perform outside s.pool.memory op).1⟩) :: s.log⟩ := by
  cases a with
  | start work =>
    refine .inl ⟨rfl, .inl rfl, fun i task htask => ?_⟩
    rw [observe, step, List.getElem?_append_left (List.getElem?_eq_some_iff.mp htask).1, htask]
  | internal change => exact .inl ⟨rfl, .inr ⟨change, rfl⟩, fun _ _ htask => htask⟩
  | advance i outside =>
    by_cases hnext : ∃ task op next, s.pool.tasks[i]? = some task ∧ task.rest = .call op next
    · obtain ⟨task, op, next, htask, hrest⟩ := hnext
      exact .inr ⟨i, outside, task, op, next, rfl, htask, hrest, observe_advance htask hrest⟩
    · have hsame := (step_advance_cases sys s.pool i outside).resolve_right hnext
      have hquiet : sys.performed s.pool (.advance i outside) = none := by
        rcases step_memory_cases sys s.pool (.advance i outside) with ⟨hnone, -⟩ |
          ⟨_, _, task, op, next, ha, htask, hrest, -, -⟩ | ⟨_, hnone, -⟩
        · exact hnone
        · cases ha
          exact absurd ⟨task, op, next, htask, hrest⟩ hnext
        · exact hnone
      have hobserved : sys.observe s (.advance i outside) = s := by
        rw [observe, hsame, acted, hquiet]
        rfl
      rw [hobserved]
      exact .inl ⟨rfl, .inl rfl, fun _ _ htask => htask⟩

/-- Each entry of the log is in the history of its task. -/
def Logged : Prop :=
  ∀ entry ∈ s.log, ∃ task, s.pool.tasks[entry.1]? = some task ∧ entry.2 ∈ task.history

variable {sys}

theorem Logged.observe {s : Observed M W Ans ε α} (hlogged : Logged s) (a : Action W O I) :
    Logged (sys.observe s a) := by
  have hkept : ∀ entry ∈ s.log, ∃ task, (sys.observe s a).pool.tasks[entry.1]? = some task ∧
      entry.2 ∈ task.history := by
    intro entry hentry
    obtain ⟨old, hold, hevent⟩ := hlogged entry hentry
    obtain ⟨task, htask, -, hpre⟩ := persists sys a hold
    exact ⟨task, htask, hpre.subset hevent⟩
  rcases observe_cases sys s a with ⟨hlog, -, -⟩ | ⟨i, outside, task, op, next, -, htask, -, heq⟩
  · intro entry hentry
    exact hkept entry (hlog ▸ hentry)
  · intro entry hentry
    rw [heq] at hentry
    rcases List.mem_cons.mp hentry with rfl | hentry
    · rw [heq]
      exact ⟨_, List.getElem?_set_self (List.getElem?_eq_some_iff.mp htask).1,
        List.mem_append_right _ (List.mem_singleton_self _)⟩
    · exact hkept entry hentry

end Observe

/-! ## Answers that are new -/

section Keys

variable {κ : Type} (key : Event Ans → Option κ)

/-- What one task has generated no other has. -/
def Distinct (p : Pool M W Ans ε α) : Prop :=
  ∀ (i j : ℕ) (task other : Task W Ans ε α) (k : κ), p.tasks[i]? = some task →
    p.tasks[j]? = some other → k ∈ task.keys key → k ∈ other.keys key → i = j

variable (sys)

def generated (p : Pool M W Ans ε α) : Action W O I → Option κ
  | .advance i outside =>
    p.tasks[i]?.bind fun task =>
      match task.rest with
      | .done _ => none
      | .call op _ => key ⟨op, (sys.perform outside p.memory op).1⟩
  | _ => none

variable {sys key} in
theorem generated_eq : sys.generated key p a = (sys.performed p a).bind key := by
  cases a with
  | start | internal => rfl
  | advance i outside =>
    rw [generated, performed, Option.bind_assoc]
    congr 1
    funext task
    cases task.rest <;> rfl

abbrev Fresh (p : Pool M W Ans ε α) (a : Action W O I) : Prop :=
  ∀ k ∈ sys.generated key p a, ∀ task ∈ p.tasks, k ∉ task.keys key

variable {sys key}

theorem distinct_step (hdistinct : Distinct key p) (hfresh : sys.Fresh key p a) :
    Distinct key (sys.step p a) := by
  -- the keys of a task after the step: those it had, and what the step generated for it
  have hkeys : ∀ {j task k}, (sys.step p a).tasks[j]? = some task → k ∈ task.keys key →
      (∃ old, p.tasks[j]? = some old ∧ k ∈ old.keys key) ∨
        ∃ i outside, a = .advance i outside ∧ j = i ∧ ∀ other ∈ p.tasks, k ∉ other.keys key := by
    intro j task k htask hk
    cases origin htask with
    | kept hold => exact .inl ⟨task, hold, hk⟩
    | begun work => exact nomatch hk
    | answered hold hrest =>
      rw [Task.keys, Task.answered, List.filterMap_append, List.mem_append] at hk
      rcases hk with hk | hk
      · exact .inl ⟨_, hold, hk⟩
      · refine .inr ⟨j, _, rfl, rfl, hfresh k ?_⟩
        obtain ⟨event, hevent, hkey⟩ := List.mem_filterMap.mp hk
        cases List.mem_singleton.mp hevent
        rw [generated_eq, performed_advance hold hrest]
        exact hkey
  intro i j task other k htask hother hk hk'
  rcases hkeys htask hk with ⟨old, hold, hk⟩ | ⟨n, outside, rfl, rfl, hnone⟩
  · rcases hkeys hother hk' with ⟨old', hold', hk'⟩ | ⟨n, outside, rfl, rfl, hnone⟩
    · exact hdistinct i j old old' k hold hold' hk hk'
    · exact absurd hk (hnone old (List.mem_of_getElem? hold))
  · rcases hkeys hother hk' with ⟨old', hold', hk'⟩ | ⟨m, outside', hsame, rfl, _⟩
    · exact absurd hk' (hnone old' (List.mem_of_getElem? hold'))
    · cases hsame
      rfl

end Keys

end System

end Interactive
