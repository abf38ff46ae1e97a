import Talos.Interactive.Program

/-!
# Programs that run alone on a memory

A program that has the memory for itself until it ends. With every operation something
comes from outside, and the program is cut short when nothing more comes.

`Alone perform G os m p R` says that every operation takes the memory to one that `G`
relates it to, and that `R` holds of what is left from outside, the memory and the outcome
at the end. It is computed along the program by the rules below.
-/

namespace Interactive

variable {M O Op : Type} {Ans : Op → Type} {ε α β : Type}

namespace Program

def runAlone (perform : O → M → (op : Op) → Ans op × M) : List O → M → Program Ans ε α → M
  | _, m, .done _ => m
  | [], m, .call _ _ => m
  | o :: os, m, .call op next =>
    runAlone perform os (perform o m op).2 (next (perform o m op).1)

def Alone (perform : O → M → (op : Op) → Ans op × M) (G : O → M → M → Prop) :
    List O → M → Program Ans ε α → (List O → M → Except ε α → Prop) → Prop
  | os, m, .done outcome, R => R os m outcome
  | [], _, .call _ _, _ => True
  | o :: os, m, .call op next, R =>
    G o m (perform o m op).2 ∧ Alone perform G os (perform o m op).2 (next (perform o m op).1) R

section Rules

variable {perform : O → M → (op : Op) → Ans op × M} {G : O → M → M → Prop} {os : List O} {m : M}
  {R : List O → M → Except ε α → Prop}

@[simp] theorem alone_pure {a : α} :
    Alone perform G os m (pure a : Program Ans ε α) R ↔ R os m (.ok a) := by
  cases os <;> exact Iff.rfl

@[simp] theorem alone_fail {e : ε} :
    Alone perform G os m (fail e : Program Ans ε α) R ↔ R os m (.error e) := by
  cases os <;> exact Iff.rfl

@[simp] theorem alone_ofOutcome {outcome : Except ε α} :
    Alone perform G os m (ofOutcome outcome : Program Ans ε α) R ↔ R os m outcome := by
  cases os <;> exact Iff.rfl

theorem alone_perform {op : Op} {R : List O → M → Except ε (Ans op) → Prop} :
    Alone perform G os m (Program.perform op) R ↔ ∀ o rest, os = o :: rest →
        G o m (perform o m op).2 ∧ R rest (perform o m op).2 (.ok (perform o m op).1) := by
  constructor
  · rintro h o rest rfl
    cases rest <;> exact h
  · intro h
    cases os with
    | nil => trivial
    | cons o rest =>
      have hstep := h o rest rfl
      cases rest <;> exact hstep

variable {p : Program Ans ε α}

@[simp] theorem alone_bind_iff {R : List O → M → Except ε β → Prop} {f : α → Program Ans ε β} :
    Alone perform G os m (p >>= f) R ↔
      Alone perform G os m p (fun os m outcome => match outcome with
        | .ok a => Alone perform G os m (f a) R
        | .error e => R os m (.error e)) := by
  induction p generalizing os m with
  | done outcome => cases outcome <;> cases os <;> exact Iff.rfl
  | call op next ih =>
    cases os with
    | nil => exact Iff.rfl
    | cons o rest => exact and_congr_right fun _ => ih _

@[simp] theorem alone_attempt {R : List O → M → Except ε (Except ε α) → Prop} :
    Alone perform G os m p.attempt R ↔
      Alone perform G os m p (fun os m outcome => R os m (.ok outcome)) := by
  induction p generalizing os m with
  | done outcome => cases os <;> exact Iff.rfl
  | call op next ih =>
    cases os with
    | nil => exact Iff.rfl
    | cons o rest => exact and_congr_right fun _ => ih _

@[simp] theorem alone_ite {c : Prop} [Decidable c] {p q : Program Ans ε α} :
    Alone perform G os m (if c then p else q) R ↔
      (c → Alone perform G os m p R) ∧ (¬c → Alone perform G os m q R) := by
  split <;> simp [*]

theorem Alone.mono {R' : List O → M → Except ε α → Prop} (hp : Alone perform G os m p R)
    (himp : ∀ os m outcome, R os m outcome → R' os m outcome) : Alone perform G os m p R' := by
  induction p generalizing os m with
  | done outcome =>
    cases os <;> exact himp _ _ _ hp
  | call op next ih =>
    cases os with
    | nil => trivial
    | cons o rest => exact ⟨hp.1, ih _ hp.2⟩

theorem Confined.alone {P : Op → Prop} {S : Except ε α → Prop} {J : M → Prop} (hp : Confined P p S)
    (hstep : ∀ o m op, J m → P op → G o m (perform o m op).2 ∧ J (perform o m op).2) (hm : J m) :
    Alone perform G os m p fun _ m outcome => J m ∧ S outcome := by
  induction p generalizing os m with
  | done outcome => cases os <;> exact ⟨hm, hp⟩
  | call op next ih =>
    cases os with
    | nil => trivial
    | cons o rest =>
      obtain ⟨hrelated, hkept⟩ := hstep o m op hm hp.1
      exact ⟨hrelated, ih _ (hp.2 _) hkept⟩

end Rules

end Program

end Interactive
