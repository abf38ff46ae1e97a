import Mathlib.Data.List.Basic

/-!
# Sequences of statements

A statement succeeds with a new state or fails with an error. Outside a
transaction every statement commits on its own, so a failure keeps what the
statements before it did (`execute`); inside one a failure takes everything back
(`transaction`). A reflexive and transitive relation that each statement keeps
is kept by both.
-/

namespace Relational

variable {σ ε : Type*}

/-- The statements in order, up to the first that fails. -/
def execute : σ → List (σ → Except ε σ) → σ × Option ε
  | s, [] => (s, none)
  | s, statement :: statements =>
    match statement s with
    | .error error => (s, some error)
    | .ok s' => execute s' statements

/-- The statements in one transaction. -/
def transaction (s : σ) (statements : List (σ → Except ε σ)) : Except ε σ :=
  match execute s statements with
  | (s', none) => .ok s'
  | (_, some error) => .error error

theorem execute_cons_ok {s s' : σ} {statement : σ → Except ε σ} (h : statement s = .ok s')
    (statements : List (σ → Except ε σ)) :
    execute s (statement :: statements) = execute s' statements := by
  simp [execute, h]

variable {statements : List (σ → Except ε σ)}

theorem transaction_of_error_eq_none {s : σ} (h : (execute s statements).2 = none) :
    transaction s statements = .ok (execute s statements).1 := by
  unfold transaction
  cases hexecute : execute s statements with
  | mk final error =>
    rw [hexecute] at h
    dsimp only at h
    rw [h]

theorem eq_execute_of_transaction {s s' : σ} (h : transaction s statements = .ok s') :
    s' = (execute s statements).1 := by
  unfold transaction at h
  split at h
  · rename_i final hexecute
    cases h
    rw [hexecute]
  · cases h

theorem execute_relation {R : σ → σ → Prop} (hrefl : ∀ s, R s s)
    (htrans : ∀ s t u, R s t → R t u → R s u)
    (hstatement : ∀ statement ∈ statements, ∀ s s', statement s = .ok s' → R s s') (s : σ) :
    R s (execute s statements).1 := by
  induction statements generalizing s with
  | nil => exact hrefl s
  | cons statement statements ih =>
    cases hfirst : statement s with
    | error error =>
      simp only [execute, hfirst]
      exact hrefl s
    | ok s' =>
      rw [execute_cons_ok hfirst]
      refine htrans _ _ _ (hstatement statement (by simp) s s' hfirst) ?_
      exact ih (fun other hother => hstatement other (by simp [hother])) s'

theorem execute_error_eq_none {P : σ → Prop}
    (hstatement : ∀ statement ∈ statements, ∀ s, P s → ∃ s', statement s = .ok s' ∧ P s') {s : σ}
    (hs : P s) : (execute s statements).2 = none := by
  induction statements generalizing s with
  | nil => rfl
  | cons statement statements ih =>
    obtain ⟨s', hfirst, hs'⟩ := hstatement statement (by simp) s hs
    rw [execute_cons_ok hfirst]
    exact ih (fun other hother => hstatement other (by simp [hother])) hs'

end Relational
