import Mathlib.Data.List.Infix

/-!
# Programs that talk to their environment

A program performs operations one after the other, and what it does next depends on
the answers. It ends with a value or with an error, which skips the rest of the
program that it is part of. The environment is left open: the answer to an operation
may be anything, or what an `Environment` gives for the history of operations and
answers so far.

`Safe Q h p R` is a condition on every run of `p` that starts after the history `h`,
whatever the answers are: each operation satisfies `Q` with what happened before it,
and the outcome satisfies `R` with the whole history. `Confined P p S` is the same
without histories. Both are computed along the program by the rules below.
-/

namespace Interactive

/-- A program with operations `Op`, answers `Ans` and errors `ε`. -/
inductive Program {Op : Type} (Ans : Op → Type) (ε α : Type) where
  | done (outcome : Except ε α)
  | call (op : Op) (next : Ans op → Program Ans ε α)

structure Event {Op : Type} (Ans : Op → Type) where
  op : Op
  answer : Ans op

variable {Op : Type} {Ans : Op → Type} {ε α β : Type}

namespace Program

def bind : Program Ans ε α → (α → Program Ans ε β) → Program Ans ε β
  | .done (.ok a), f => f a
  | .done (.error e), _ => .done (.error e)
  | .call op next, f => .call op fun answer => (next answer).bind f

instance : Monad (Program Ans ε) where
  pure a := .done (.ok a)
  bind := bind

theorem bind_bind {γ : Type} (p : Program Ans ε α) (f : α → Program Ans ε β)
    (g : β → Program Ans ε γ) : (p >>= f) >>= g = p >>= fun a => f a >>= g := by
  induction p with
  | done outcome => cases outcome <;> rfl
  | call op next ih => exact congrArg (call op) (funext ih)

theorem pure_bind_eq (a : α) (f : α → Program Ans ε β) : pure a >>= f = f a := rfl

def fail (e : ε) : Program Ans ε α := .done (.error e)

def perform (op : Op) : Program Ans ε (Ans op) := .call op fun answer => .done (.ok answer)

/-- The program with its outcome as the value, so that an error does not end what
follows. -/
def attempt : Program Ans ε α → Program Ans ε (Except ε α)
  | .done outcome => .done (.ok outcome)
  | .call op next => .call op fun answer => (next answer).attempt

/-- An outcome that was obtained as a value ends the program if it is an error. -/
def ofOutcome (outcome : Except ε α) : Program Ans ε α := .done outcome

@[simp] theorem outcome_accepted (outcome : Except ε α) : (match outcome with
      | .ok _ => True
      | .error _ => True) ↔ True := by
  cases outcome <;> exact Iff.rfl

/-! ## Safety -/

/-- Every operation satisfies `Q` with what happened before it, and the outcome `R`. -/
def Safe (Q : List (Event Ans) → Op → Prop) : List (Event Ans) → Program Ans ε α →
    (List (Event Ans) → Except ε α → Prop) → Prop
  | h, .done outcome, R => R h outcome
  | h, .call op next, R => Q h op ∧ ∀ answer, Safe Q (h ++ [⟨op, answer⟩]) (next answer) R

section Rules

variable {Q : List (Event Ans) → Op → Prop} {h : List (Event Ans)}
  {R : List (Event Ans) → Except ε α → Prop}

@[simp] theorem safe_pure {a : α} : Safe Q h (pure a) R ↔ R h (.ok a) := Iff.rfl

@[simp] theorem safe_fail {e : ε} : Safe Q h (fail e) R ↔ R h (.error e) := Iff.rfl

variable {f : α → Program Ans ε β} {p : Program Ans ε α}

@[simp] theorem safe_bind_iff {R : List (Event Ans) → Except ε β → Prop} :
    Safe Q h (p >>= f) R ↔ Safe Q h p (fun h outcome => match outcome with
        | .ok a => Safe Q h (f a) R
        | .error e => R h (.error e)) := by
  induction p generalizing h with
  | done outcome => cases outcome <;> exact Iff.rfl
  | call op next ih => exact and_congr_right fun _ => forall_congr' fun answer => ih answer

@[simp] theorem safe_attempt {R : List (Event Ans) → Except ε (Except ε α) → Prop} :
    Safe Q h p.attempt R ↔ Safe Q h p (fun h outcome => R h (.ok outcome)) := by
  induction p generalizing h with
  | done outcome => exact Iff.rfl
  | call op next ih => exact and_congr_right fun _ => forall_congr' fun answer => ih answer

@[simp] theorem safe_ite {c : Prop} [Decidable c] {q : Program Ans ε α} :
    Safe Q h (if c then p else q) R ↔ (c → Safe Q h p R) ∧ (¬c → Safe Q h q R) := by
  split <;> simp [*]

variable {R' : List (Event Ans) → Except ε α → Prop}

theorem Safe.mono (hsafe : Safe Q h p R)
    (himp : ∀ h' outcome, h <+: h' → R h' outcome → R' h' outcome) : Safe Q h p R' := by
  induction p generalizing h with
  | done outcome => exact himp h outcome (List.prefix_refl h) hsafe
  | call op next ih =>
    refine ⟨hsafe.1, fun answer => ih answer (hsafe.2 answer) fun h' outcome hpre => ?_⟩
    exact himp h' outcome ((List.prefix_append h _).trans hpre)

theorem Safe.imp {Q' : List (Event Ans) → Op → Prop} (hsafe : Safe Q h p R)
    (hop : ∀ h op, Q h op → Q' h op) (hout : ∀ h outcome, R h outcome → R' h outcome) :
    Safe Q' h p R' := by
  induction p generalizing h with
  | done outcome => exact hout h outcome hsafe
  | call op next ih => exact ⟨hop h op hsafe.1, fun answer => ih answer (hsafe.2 answer)⟩

theorem Safe.bind {R' : List (Event Ans) → Except ε β → Prop} (hp : Safe Q h p R)
    (hok : ∀ h' a, h <+: h' → R h' (.ok a) → Safe Q h' (f a) R')
    (herror : ∀ h' e, h <+: h' → R h' (.error e) → R' h' (.error e)) : Safe Q h (p >>= f) R' := by
  rw [safe_bind_iff]
  refine hp.mono fun h' outcome hpre hmid => ?_
  cases outcome with
  | ok a => exact hok h' a hpre hmid
  | error e => exact herror h' e hpre hmid

/-- The condition `R` on the value, if there is one. -/
def OnOk (R : List (Event Ans) → α → Prop) (h : List (Event Ans)) : Except ε α → Prop
  | .ok a => R h a
  | .error _ => True

theorem Safe.then {R' : List (Event Ans) → β → Prop} (hp : Safe Q h p R)
    (hok : ∀ h' a, h <+: h' → R h' (.ok a) → Safe Q h' (f a) (OnOk R')) :
    Safe Q h (p >>= f) (OnOk R') :=
  hp.bind hok fun _ _ _ _ => trivial

end Rules

/-! ## Runs against one environment -/

/-- The answers may depend on everything that happened before. -/
abbrev Environment (Ans : Op → Type) := List (Event Ans) → (op : Op) → Ans op

/-- The history and the outcome of the program in an environment, after `h`. -/
def exec (env : Environment Ans) : List (Event Ans) → Program Ans ε α →
    List (Event Ans) × Except ε α
  | h, .done outcome => (h, outcome)
  | h, .call op next => exec env (h ++ [⟨op, env h op⟩]) (next (env h op))

/-- Every event of the history satisfies `E` with what happened before it. -/
def Throughout (E : List (Event Ans) → Event Ans → Prop) (h : List (Event Ans)) : Prop :=
  ∀ before event after, h = before ++ event :: after → E before event

/-- Every operation of the history satisfies `Q` with what happened before it. -/
abbrev Obeys (Q : List (Event Ans) → Op → Prop) : List (Event Ans) → Prop :=
  Throughout fun h event => Q h event.op

section Throughout

variable {E : List (Event Ans) → Event Ans → Prop} {h : List (Event Ans)}

theorem throughout_nil : Throughout E [] := by
  intro before event after heq
  cases before <;> cases heq

variable {event : Event Ans}

theorem throughout_concat_iff : Throughout E (h ++ [event]) ↔ Throughout E h ∧ E h event := by
  constructor
  · intro hall
    refine ⟨fun before other after heq => ?_, hall h event [] rfl⟩
    exact hall before other (after ++ [event]) (by simp [heq])
  · rintro ⟨hall, hlast⟩ before other after heq
    rcases List.eq_nil_or_concat after with rfl | ⟨after', last, rfl⟩
    · obtain ⟨rfl, hevent⟩ := List.append_inj' heq rfl
      cases hevent
      exact hlast
    · refine hall before other after' ?_
      have hparts : h ++ [event] = (before ++ other :: after') ++ [last] := by simp [heq]
      exact (List.append_inj' hparts rfl).1

theorem Throughout.unique {kind : Event Ans → Bool}
    (hall : Throughout (fun before event => kind event = true → ∀ earlier ∈ before,
      kind earlier = false) h) {other : Event Ans} (hevent : event ∈ h) (hother : other ∈ h)
    (hkind : kind event = true) (hkind' : kind other = true) : event = other := by
  obtain ⟨before, after, hsplit⟩ := List.append_of_mem hevent
  rw [hsplit] at hother
  rcases List.mem_append.mp hother with hbefore | hrest
  · exact absurd hkind' (by simp [hall before event after hsplit hkind other hbefore])
  · rcases List.mem_cons.mp hrest with rfl | hafter
    · rfl
    · obtain ⟨middle, last, rfl⟩ := List.append_of_mem hafter
      have hearlier := hall (before ++ event :: middle) other last (by simp [hsplit]) hkind'
        event (by simp)
      exact absurd hkind (by simp [hearlier])

theorem prefix_exec (env : Environment Ans) (h : List (Event Ans)) (p : Program Ans ε α) :
    h <+: (exec env h p).1 := by
  induction p generalizing h with
  | done outcome => exact List.prefix_refl h
  | call op next ih => exact (List.prefix_append h _).trans (ih _ _)

theorem Safe.exec {Q : List (Event Ans) → Op → Prop} {p : Program Ans ε α}
    {R : List (Event Ans) → Except ε α → Prop} (hsafe : Safe Q h p R)
    (hobeys : Obeys Q h) (env : Environment Ans) :
    Obeys Q (exec env h p).1 ∧ R (exec env h p).1 (exec env h p).2 := by
  induction p generalizing h with
  | done outcome => exact ⟨hobeys, hsafe⟩
  | call op next ih => exact ih _ (hsafe.2 _) (throughout_concat_iff.mpr ⟨hobeys, hsafe.1⟩)

end Throughout

/-! ## Programs that keep to some operations -/

/-- Every operation satisfies `P` and the outcome `S`. -/
def Confined (P : Op → Prop) : Program Ans ε α → (Except ε α → Prop) → Prop
  | .done outcome, S => S outcome
  | .call op next, S => P op ∧ ∀ answer, Confined P (next answer) S

section Confined

variable {P : Op → Prop} {S : Except ε α → Prop} {p : Program Ans ε α}

@[simp] theorem confined_pure {a : α} : Confined P (pure a : Program Ans ε α) S ↔ S (.ok a) :=
  Iff.rfl

@[simp] theorem confined_fail {e : ε} :
    Confined P (fail e : Program Ans ε α) S ↔ S (.error e) := Iff.rfl

@[simp] theorem confined_ofOutcome {outcome : Except ε α} :
    Confined P (ofOutcome outcome : Program Ans ε α) S ↔ S outcome := Iff.rfl

variable {f : α → Program Ans ε β}

@[simp] theorem confined_bind_iff {S : Except ε β → Prop} : Confined P (p >>= f) S ↔
      Confined P p (fun outcome => match outcome with
        | .ok a => Confined P (f a) S
        | .error e => S (.error e)) := by
  induction p with
  | done outcome => cases outcome <;> exact Iff.rfl
  | call op next ih => exact and_congr_right fun _ => forall_congr' fun answer => ih answer

@[simp] theorem confined_attempt {S : Except ε (Except ε α) → Prop} :
    Confined P p.attempt S ↔ Confined P p (fun outcome => S (.ok outcome)) := by
  induction p with
  | done outcome => exact Iff.rfl
  | call op next ih => exact and_congr_right fun _ => forall_congr' fun answer => ih answer

@[simp] theorem confined_ite {c : Prop} [Decidable c] {q : Program Ans ε α} :
    Confined P (if c then p else q) S ↔ (c → Confined P p S) ∧ (¬c → Confined P q S) := by
  split <;> simp [*]

theorem Confined.mono {P' : Op → Prop} {S' : Except ε α → Prop} (hp : Confined P p S)
    (hop : ∀ op, P op → P' op) (hout : ∀ outcome, S outcome → S' outcome) : Confined P' p S' := by
  induction p with
  | done outcome => exact hout outcome hp
  | call op next ih => exact ⟨hop op hp.1, fun answer => ih answer (hp.2 answer)⟩

/-- Every operation satisfies `P`, whatever the outcome. -/
abbrev Within (P : Op → Prop) (p : Program Ans ε α) : Prop := Confined P p fun _ => True

theorem confined_true (p : Program Ans ε α) : Within (fun _ => True) p := by
  induction p with
  | done outcome => trivial
  | call op next ih => exact ⟨trivial, ih⟩

theorem Within.then {S : Except ε β → Prop} (hp : Within P p) (herror : ∀ e, S (.error e))
    (hf : ∀ a, Confined P (f a) S) : Confined P (p >>= f) S := by
  refine confined_bind_iff.mpr (hp.mono (fun _ hop => hop) fun outcome _ => ?_)
  cases outcome with
  | ok a => exact hf a
  | error e => exact herror e

theorem Within.bind (hp : Within P p) (hf : ∀ a, Within P (f a)) : Within P (p >>= f) :=
  Within.then hp (fun _ => trivial) hf

variable {Q : List (Event Ans) → Op → Prop} {h : List (Event Ans)}
  {R : List (Event Ans) → Except ε α → Prop}

theorem Confined.safe_of_invariant {J : List (Event Ans) → Prop} (hp : Confined P p S)
    (hkeep : ∀ h op answer, J h → P op → J (h ++ [⟨op, answer⟩]))
    (hop : ∀ h op, J h → P op → Q h op) (hout : ∀ h outcome, J h → S outcome → R h outcome)
    (hh : J h) : Safe Q h p R := by
  induction p generalizing h with
  | done outcome => exact hout h outcome hh hp
  | call op next ih =>
    exact ⟨hop h op hh hp.1, fun answer => ih answer (hp.2 answer) (hkeep h op answer hh hp.1)⟩

theorem Confined.safe (hp : Confined P p S) (hop : ∀ h' op, h <+: h' → P op → Q h' op)
    (hout : ∀ h' outcome, h <+: h' → S outcome → R h' outcome) : Safe Q h p R :=
  hp.safe_of_invariant (fun _ _ _ hpre _ => hpre.trans (List.prefix_append _ _)) hop hout
    (List.prefix_refl h)

end Confined

end Program

end Interactive
