import Mathlib.Logic.Basic

/-!
# Runs of a state machine

A machine is a step function that takes an action; every choice that the
machine leaves open is part of the action, so a run is determined by its list
of actions. `along step Q s as` says that every step of the run satisfies `Q`
at the state it is taken in. An invariant is shown to survive one step and the
lemmas below carry it over the run; a relation between an earlier and a later
state is carried the same way.
-/

namespace Transition

variable {σ α : Type*}

/-- The state after the actions `as`, taken in order. -/
def run (step : σ → α → σ) : σ → List α → σ
  | s, [] => s
  | s, a :: as => run step (step s a) as

/-- Every step of the run satisfies `Q` in the state where it is taken. -/
def along (step : σ → α → σ) (Q : σ → α → Prop) : σ → List α → Prop
  | _, [] => True
  | s, a :: as => Q s a ∧ along step Q (step s a) as

variable {step : σ → α → σ}

@[simp] theorem run_nil (s : σ) : run step s [] = s := rfl

@[simp] theorem run_cons (s : σ) (a : α) (as : List α) :
    run step s (a :: as) = run step (step s a) as := rfl

theorem run_append (s : σ) (as bs : List α) :
    run step s (as ++ bs) = run step (run step s as) bs := by
  induction as generalizing s with
  | nil => rfl
  | cons a as ih => simp [ih]

@[simp] theorem along_nil (Q : σ → α → Prop) (s : σ) : along step Q s [] := trivial

@[simp] theorem along_cons (Q : σ → α → Prop) (s : σ) (a : α) (as : List α) :
    along step Q s (a :: as) ↔ Q s a ∧ along step Q (step s a) as := Iff.rfl

instance along.decidable (Q : σ → α → Prop) [∀ s a, Decidable (Q s a)] (s : σ) :
    (as : List α) → Decidable (along step Q s as)
  | [] => isTrue trivial
  | a :: as => @instDecidableAnd _ _ _ (along.decidable Q (step s a) as)

theorem along_append (Q : σ → α → Prop) (s : σ) (as bs : List α) :
    along step Q s (as ++ bs) ↔ along step Q s as ∧ along step Q (run step s as) bs := by
  induction as generalizing s with
  | nil => simp
  | cons a as ih => simp [ih, and_assoc]

variable {Q : σ → α → Prop} {P : σ → Prop} {s : σ} {as : List α}

/-- An invariant that the steps allowed by `Q` preserve holds after every run
of such steps. -/
theorem run_invariant_along (hstep : ∀ s a, P s → Q s a → P (step s a)) (hs : P s)
    (has : along step Q s as) : P (run step s as) := by
  induction as generalizing s with
  | nil => exact hs
  | cons a as ih => exact ih (hstep s a hs has.1) has.2

theorem run_invariant (hstep : ∀ s a, P s → P (step s a)) (hs : P s) (as : List α) :
    P (run step s as) := by
  induction as generalizing s with
  | nil => exact hs
  | cons a as ih => exact ih (hstep s a hs)

variable {R : σ → σ → Prop}

/-- A reflexive and transitive relation that holds across each allowed step
from an invariant state holds across the run. -/
theorem run_relation_along (hrefl : ∀ s, R s s) (htrans : ∀ s t u, R s t → R t u → R s u)
    (hstep : ∀ s a, P s → Q s a → P (step s a) ∧ R s (step s a)) (hs : P s)
    (has : along step Q s as) : R s (run step s as) := by
  induction as generalizing s with
  | nil => exact hrefl s
  | cons a as ih =>
    obtain ⟨hp, hr⟩ := hstep s a hs has.1
    exact htrans _ _ _ hr (ih hp has.2)

theorem run_relation (hrefl : ∀ s, R s s) (htrans : ∀ s t u, R s t → R t u → R s u)
    (hstep : ∀ s a, P s → P (step s a) ∧ R s (step s a)) (hs : P s) (as : List α) :
    R s (run step s as) := by
  induction as generalizing s with
  | nil => exact hrefl s
  | cons a as ih =>
    obtain ⟨hp, hr⟩ := hstep s a hs
    exact htrans _ _ _ hr (ih hp)

/-- A property that is never regained holds after a run exactly when every step of
the run keeps it. -/
theorem run_iff_along (hback : ∀ s a, P (step s a) → P s)
    (hstep : ∀ s a, P s → (P (step s a) ↔ Q s a)) (hs : P s) (as : List α) :
    P (run step s as) ↔ along step Q s as := by
  have hrun : ∀ (as : List α) (s : σ), P (run step s as) → P s := by
    intro as
    induction as with
    | nil => exact fun _ h => h
    | cons a as ih => exact fun s h => hback s a (ih _ h)
  induction as generalizing s with
  | nil => exact iff_of_true hs trivial
  | cons a as ih =>
    rw [run_cons, along_cons]
    constructor
    · intro h
      have hkept := hrun as _ h
      exact ⟨(hstep s a hs).mp hkept, (ih hkept).mp h⟩
    · rintro ⟨ha, has⟩
      exact (ih ((hstep s a hs).mpr ha)).mpr has

/-- A property holds in every state of a run exactly when every step of the run
keeps it. -/
theorem always_iff_along (hstep : ∀ s a, P s → (P (step s a) ↔ Q s a)) (hs : P s) (as : List α) :
    (∀ earlier rest, as = earlier ++ rest → P (run step s earlier)) ↔ along step Q s as := by
  constructor
  · intro h
    induction as generalizing s with
    | nil => trivial
    | cons a as ih =>
      have hfirst : P (step s a) := h [a] as rfl
      refine ⟨(hstep s a hs).mp hfirst, ih hfirst fun earlier rest has => ?_⟩
      exact h (a :: earlier) rest (by rw [has]; rfl)
  · rintro h earlier rest rfl
    rw [along_append] at h
    exact run_invariant_along (fun s a hp hq => (hstep s a hp).mpr hq) hs h.1

theorem along_of_forall (h : ∀ a ∈ as, ∀ s, Q s a) : along step Q s as := by
  induction as generalizing s with
  | nil => trivial
  | cons a as ih =>
    exact ⟨h a List.mem_cons_self s, ih fun b hb => h b (List.mem_cons_of_mem _ hb)⟩

variable {Q' : σ → α → Prop}

theorem along_congr (h : ∀ s a, Q s a ↔ Q' s a) (s : σ) (as : List α) :
    along step Q s as ↔ along step Q' s as := by
  induction as generalizing s with
  | nil => exact Iff.rfl
  | cons a as ih => rw [along_cons, along_cons, h, ih]

/-- Conditions that agree in the states of an invariant agree along a run whose steps
keep it. -/
theorem along_congr_of_invariant {A : σ → α → Prop} (hstep : ∀ s a, P s → A s a → P (step s a))
    (h : ∀ s a, P s → A s a → (Q s a ↔ Q' s a)) (hs : P s) (has : along step A s as) :
    along step Q s as ↔ along step Q' s as := by
  induction as generalizing s with
  | nil => exact Iff.rfl
  | cons a as ih => exact and_congr (h s a hs has.1) (ih (hstep s a hs has.1) has.2)

theorem along_and :
    along step (fun s a => Q s a ∧ Q' s a) s as ↔ along step Q s as ∧ along step Q' s as := by
  induction as generalizing s with
  | nil => exact iff_of_true trivial ⟨trivial, trivial⟩
  | cons a as ih => simp only [along_cons, ih, and_and_and_comm]

theorem along_forall {ι : Type*} {Q : ι → σ → α → Prop} :
    along step (fun s a => ∀ i, Q i s a) s as ↔ ∀ i, along step (Q i) s as := by
  induction as generalizing s with
  | nil => exact iff_of_true trivial fun _ => trivial
  | cons a as ih => simp only [along_cons, ih, forall_and]

/-- A reflexive and transitive relation holds between every state of a run and
every later one exactly when it holds across each step. -/
theorem relation_iff_along (hrefl : ∀ s, R s s) (htrans : ∀ s t u, R s t → R t u → R s u) (s : σ)
    (as : List α) : (∀ earlier later rest, as = earlier ++ later ++ rest →
        R (run step s earlier) (run step s (earlier ++ later))) ↔
      along step (fun s a => R s (step s a)) s as := by
  constructor
  · intro h
    induction as generalizing s with
    | nil => trivial
    | cons a as ih =>
      refine ⟨h [] [a] as rfl, ih (step s a) fun earlier later rest has => ?_⟩
      exact h (a :: earlier) later rest (by rw [has]; rfl)
  · rintro h earlier later rest rfl
    rw [along_append, along_append] at h
    rw [run_append]
    exact run_relation_along (P := fun _ => True) hrefl htrans (fun _ _ _ hr => ⟨trivial, hr⟩)
      trivial h.1.2

/-- Between two states of a run what is observed is the same, unless it is absent in
between. -/
def UnchangedWhilePresent {γ : Type*} (step : σ → α → σ) (obs : σ → Option γ) (s : σ)
    (as : List α) : Prop :=
  ∀ earlier later rest, as = earlier ++ later ++ rest →
    (∀ part tail, later = part ++ tail → (obs (run step s (earlier ++ part))).isSome) →
    obs (run step s (earlier ++ later)) = obs (run step s earlier)

/-- No step replaces what is observed exactly when it is unchanged while present. -/
theorem unchangedWhilePresent_iff_along {γ : Type*} {obs : σ → Option γ} :
    UnchangedWhilePresent step obs s as ↔
      along step (fun s a => (obs s).isSome → (obs (step s a)).isSome → obs (step s a) = obs s)
        s as := by
  constructor
  · intro h
    induction as generalizing s with
    | nil => trivial
    | cons a as ih =>
      refine ⟨fun hbefore hafter => h [] [a] as rfl fun part tail hpart => ?_, ih ?_⟩
      · rcases List.append_eq_singleton_iff.mp hpart.symm with ⟨rfl, rfl⟩ | ⟨rfl, rfl⟩
        · exact hbefore
        · exact hafter
      · intro earlier later rest has hpresent
        exact h (a :: earlier) later rest (by rw [has]; rfl) hpresent
  · rintro h earlier later rest rfl hpresent
    rw [along_append, along_append] at h
    obtain ⟨⟨-, hlater⟩, -⟩ := h
    simp only [run_append] at hpresent ⊢
    generalize run step s earlier = t at hlater hpresent ⊢
    induction later generalizing t with
    | nil => rfl
    | cons a later ih =>
      have hbefore := hpresent [] (a :: later) rfl
      have hafter := hpresent [a] later rfl
      refine (ih (step t a) hlater.2 fun part tail hpart => ?_).trans (hlater.1 hbefore hafter)
      exact hpresent (a :: part) tail (by rw [hpart]; rfl)

end Transition
