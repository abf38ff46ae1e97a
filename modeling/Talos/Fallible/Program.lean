import Mathlib.Order.Defs.Unbundled

/-!
# Programs whose operations fail or are cut

A program runs operations at named sites on a state. The outcome of every
operation is given from outside: whether it takes effect, and whether it reports
success, reports an error or never returns because the program is cut there. An
error can be caught; a cut cannot.

`Ensures` states what holds of a program under given outcomes, with one
postcondition for the return and one for every state in which the program can
stop. The rules below take a program apart along its operations.
-/

namespace Fallible

inductive Report where
  | ok
  | error
  | crash
deriving DecidableEq

structure Outcome where
  effect : Bool
  report : Report

inductive Stop where
  | error (description : String)
  | crash
deriving DecidableEq

/-- A program with sites `ι` and state `σ`. -/
def Program (ι σ α : Type) : Type := (ι → Outcome) → σ → Except Stop α × σ

namespace Program

variable {ι σ α β : Type}

protected def pure (a : α) : Program ι σ α := fun _ s => (.ok a, s)

protected def bind (p : Program ι σ α) (f : α → Program ι σ β) : Program ι σ β := fun o s =>
  match p o s with
  | (.ok a, s') => f a o s'
  | (.error stop, s') => (.error stop, s')

instance : Monad (Program ι σ) where
  pure := Program.pure
  bind := Program.bind

def fail (description : String) : Program ι σ α := fun _ s => (.error (.error description), s)

def result (report : Report) (description : String) (a : α) : Except Stop α :=
  match report with
  | .ok => .ok a
  | .error => .error (.error description)
  | .crash => .error .crash

/-- An operation that changes the state. It can report success without effect and
fail after its effect. -/
def change (site : ι) (description : String) (f : σ → σ) : Program ι σ Unit := fun o s =>
  (result (o site).report description (), if (o site).effect then f s else s)

/-- An operation that changes the state whenever it reports success. -/
def perform (site : ι) (description : String) (f : σ → σ) : Program ι σ Unit := fun o s =>
  (result (o site).report description (),
    if (o site).report = .ok ∨ (o site).effect = true then f s else s)

def read (site : ι) (description : String) (f : σ → α) : Program ι σ α := fun o s =>
  (result (o site).report description (f s), s)

/-- A note about the state that is no operation of the program. -/
def note (f : σ → σ) : Program ι σ Unit := fun _ s => (.ok (), f s)

def attempt (p : Program ι σ α) : Program ι σ (Option α) := fun o s =>
  match p o s with
  | (.ok a, s') => (.ok (some a), s')
  | (.error (.error _), s') => (.ok none, s')
  | (.error .crash, s') => (.error .crash, s')

/-- Under the outcomes `o` and from a state with `P`, the program returns with `Q`
or stops with `E`. -/
structure Ensures (o : ι → Outcome) (P : σ → Prop) (p : Program ι σ α) (Q : α → σ → Prop)
    (E : σ → Prop) : Prop where
  holds : ∀ s, P s → match p o s with
    | (.ok a, s') => Q a s'
    | (.error _, s') => E s'

variable {o : ι → Outcome} {P P' : σ → Prop} {Q Q' : α → σ → Prop} {R : β → σ → Prop}
  {E : σ → Prop} {p : Program ι σ α} {f : α → Program ι σ β}

theorem ensures_pure {a : α} (h : ∀ s, P s → Q a s) :
    Ensures o P (pure a : Program ι σ α) Q E := ⟨h⟩

theorem ensures_bind (hp : Ensures o P p Q E) (hf : ∀ a, Ensures o (Q a) (f a) R E) :
    Ensures o P (p >>= f) R E := by
  refine ⟨fun s hs => ?_⟩
  have hs' := hp.holds s hs
  change match Program.bind p f o s with
    | (.ok b, s') => R b s'
    | (.error _, s') => E s'
  unfold Program.bind
  split at hs'
  · next a s' _ => exact (hf a).holds s' hs'
  · exact hs'

theorem Ensures.mono (h : Ensures o P p Q E) (hP : ∀ s, P' s → P s)
    (hQ : ∀ a s, Q a s → Q' a s) : Ensures o P' p Q' E := by
  refine ⟨fun s hs => ?_⟩
  have hs' := h.holds s (hP s hs)
  split at hs'
  · next a s' heq => exact hQ a s' hs'
  · exact hs'

theorem Ensures.final {D : σ → Prop} (h : Ensures o P p (fun _ => D) D) {s : σ} (hs : P s) :
    D (p o s).2 := by
  have hs' := h.holds s hs
  split at hs' <;> next heq => rw [heq]; exact hs'

variable {description : String}

theorem ensures_fail (h : ∀ s, P s → E s) :
    Ensures o P (fail description : Program ι σ α) Q E := ⟨h⟩

variable {site : ι} {g : σ → σ}

theorem ensures_perform {Q : Unit → σ → Prop} (hE : ∀ s, P s → E s ∧ E (g s))
    (hQ : ∀ s, P s → Q () (g s)) : Ensures o P (perform site description g) Q E := by
  refine ⟨fun s hs => ?_⟩
  unfold perform result
  cases (o site).report <;> cases (o site).effect
  · exact hQ s hs
  · exact hQ s hs
  all_goals first | exact (hE s hs).1 | exact (hE s hs).2

theorem ensures_read {g : σ → α} (hE : ∀ s, P s → E s) (hQ : ∀ s, P s → Q (g s) s) :
    Ensures o P (read site description g) Q E := by
  refine ⟨fun s hs => ?_⟩
  unfold read result
  cases (o site).report with
  | ok => exact hQ s hs
  | error | crash => exact hE s hs

theorem ensures_attempt {Q : Option α → σ → Prop}
    (h : Ensures o P p (fun a => Q (some a)) fun s => Q none s ∧ E s) :
    Ensures o P (attempt p) Q E := by
  refine ⟨fun s hs => ?_⟩
  have hs' := h.holds s hs
  unfold attempt
  split at hs'
  · next a s' heq =>
      rw [heq]
      exact hs'
  · next stop s' heq =>
      rw [heq]
      cases stop with
      | error description => exact hs'.1
      | crash => exact hs'.2

/-! ## Relations that a program keeps -/

theorem bind_of_ok {s s' : σ} {a : α} (h : p o s = (.ok a, s')) : (p >>= f) o s = f a o s' := by
  change Program.bind p f o s = f a o s'
  unfold Program.bind
  rw [h]

theorem bind_bind {γ : Type} (p : Program ι σ α) (f : α → Program ι σ β)
    (g : β → Program ι σ γ) : (p >>= f) >>= g = p >>= fun a => f a >>= g := by
  funext o s
  change Program.bind (Program.bind p f) g o s = Program.bind p (fun a => f a >>= g) o s
  unfold Program.bind
  cases p o s with
  | mk outcome s' => cases outcome <;> rfl

theorem bind_of_error {s s' : σ} {stop : Stop} (h : p o s = (.error stop, s')) :
    (p >>= f) o s = (.error stop, s') := by
  change Program.bind p f o s = (.error stop, s')
  unfold Program.bind
  rw [h]

theorem read_of_ok {g : σ → α} {s : σ} (h : (o site).report = .ok) :
    read site description g o s = (.ok (g s), s) := by
  rw [read, h]
  rfl

theorem attempt_perform (site : ι) (description : String) (g : σ → σ) (o : ι → Outcome) (s : σ) :
    attempt (perform site description g) o s =
      match (o site).report with
      | .ok => (.ok (some ()), g s)
      | .error => (.ok none, if (o site).effect then g s else s)
      | .crash => (.error .crash, if (o site).effect then g s else s) := by
  unfold attempt perform result
  cases (o site).report <;> simp

/-- Whatever the outcomes, the states before and after the program are related. -/
def Keeps (R : σ → σ → Prop) (p : Program ι σ α) : Prop := ∀ o s, R s (p o s).2

section Keeps

variable {K : σ → σ → Prop}

theorem keeps_note (h : ∀ s, K s (g s)) : Keeps K (note g : Program ι σ Unit) := fun _ s => h s

theorem keeps_attempt (h : Keeps K p) : Keeps K (attempt p) := by
  intro o s
  have hkeeps := h o s
  unfold attempt
  split <;> next heq => rw [heq] at hkeeps; exact hkeeps

theorem keeps_bind [IsTrans σ K] (hp : Keeps K p) (hf : ∀ a, Keeps K (f a)) :
    Keeps K (p >>= f) := by
  intro o s
  have hkeeps := hp o s
  change K s (Program.bind p f o s).2
  unfold Program.bind
  split
  · next a s' heq =>
      rw [heq] at hkeeps
      exact IsTrans.trans _ _ _ hkeeps (hf a o s')
  · next stop s' heq =>
      rw [heq] at hkeeps
      exact hkeeps

variable [Std.Refl K]

/-- What the second part of a program keeps, seen from where the first part ends. -/
theorem keeps_after (hf : ∀ a, Keeps K (f a)) (o : ι → Outcome) (s : σ) :
    K (p o s).2 ((p >>= f) o s).2 := by
  change K (p o s).2 (Program.bind p f o s).2
  unfold Program.bind
  split
  · next a s' heq =>
      rw [heq]
      exact hf a o s'
  · next stop s' heq =>
      rw [heq]
      exact refl s'

theorem keeps_pure (a : α) : Keeps K (pure a : Program ι σ α) := fun _ s => refl s

theorem keeps_fail (description : String) : Keeps K (fail description : Program ι σ α) :=
  fun _ s => refl s

theorem keeps_read (site : ι) (description : String) (g : σ → α) :
    Keeps K (read site description g) := fun _ s => refl s

theorem keeps_change (h : ∀ s, K s (g s)) : Keeps K (change site description g) := by
  intro o s
  unfold change
  split
  · exact h s
  · exact refl s

theorem keeps_perform (h : ∀ s, K s (g s)) : Keeps K (perform site description g) := by
  intro o s
  unfold perform
  split
  · exact h s
  · exact refl s

end Keeps

/-! ## Programs that return -/

/-- The program returns from the state `s`, with `Q`. -/
def Returns (p : Program ι σ α) (o : ι → Outcome) (s : σ) (Q : α → σ → Prop) : Prop :=
  match p o s with
  | (.ok a, s') => Q a s'
  | (.error _, _) => False

theorem returns_bind {Q : β → σ → Prop} {s : σ} :
    (p >>= f).Returns o s Q ↔ p.Returns o s fun a s' => (f a).Returns o s' Q := by
  change (Program.bind p f).Returns o s Q ↔ _
  unfold Returns Program.bind
  cases p o s with
  | mk outcome s' => cases outcome <;> rfl

theorem returns_read {g : σ → α} {s : σ} :
    (read site description g).Returns o s Q ↔ (o site).report = .ok ∧ Q (g s) s := by
  unfold Returns read result
  cases (o site).report <;> simp

theorem returns_perform {Q : Unit → σ → Prop} {s : σ} :
    (perform site description g).Returns o s Q ↔ (o site).report = .ok ∧ Q () (g s) := by
  unfold Returns perform result
  cases (o site).report <;> simp

end Program

end Fallible
