import Mathlib.Data.Nat.Notation

/-!
# Routines that change a state, return errors and may panic

A method with `&mut self` that returns a `Result`: an error leaves the changes made so
far, and `none` is a panic. `Yields r Q s` says that `r` does not panic from `s` and that
its result and the state after it satisfy `Q`; the rules below compute it along the
routine.
-/

namespace Rust

abbrev Routine (σ ε α : Type) := ExceptT ε (StateT σ Option) α

namespace Routine

variable {σ ε α β : Type}

/-- The result and the state after it, or a panic. -/
def exec (r : Routine σ ε α) (s : σ) : Option (Except ε α × σ) := r.run.run s

def Yields (r : Routine σ ε α) (Q : Except ε α → σ → Prop) (s : σ) : Prop :=
  match r.exec s with
  | none => False
  | some (result, s') => Q result s'

variable {Q : Except ε α → σ → Prop} {s : σ}

variable {a : α}

@[simp] theorem yields_pure : Yields (pure a : Routine σ ε α) Q s ↔ Q (.ok a) s := Iff.rfl

@[simp] theorem yields_throw {e : ε} :
    Yields (throw e : Routine σ ε α) Q s ↔ Q (.error e) s := Iff.rfl

@[simp] theorem yields_get {Q : Except ε σ → σ → Prop} :
    Yields (get : Routine σ ε σ) Q s ↔ Q (.ok s) s := Iff.rfl

@[simp] theorem yields_set {Q : Except ε PUnit → σ → Prop} {s' : σ} :
    Yields (set s' : Routine σ ε PUnit) Q s ↔ Q (.ok ⟨⟩) s' := Iff.rfl

@[simp] theorem yields_modify {Q : Except ε PUnit → σ → Prop} {f : σ → σ} :
    Yields (modify f : Routine σ ε PUnit) Q s ↔ Q (.ok ⟨⟩) (f s) := Iff.rfl

@[simp] theorem yields_lift_some :
    Yields (liftM (some a) : Routine σ ε α) Q s ↔ Q (.ok a) s := Iff.rfl

variable {result : Except ε α}

@[simp] theorem yields_lift_except :
    Yields (liftM result : Routine σ ε α) Q s ↔ Q result s := Iff.rfl

theorem exec_bind (r : Routine σ ε α) (f : α → Routine σ ε β) (s : σ) : (r >>= f).exec s =
      match r.exec s with
      | none => none
      | some (.ok a, s') => (f a).exec s'
      | some (.error e, s') => some (.error e, s') := by
  change Option.bind (r.exec s) (fun p => StateT.run (ExceptT.bindCont f p.1) p.2) = _
  rcases r.exec s with _ | ⟨_ | a, s'⟩ <;> rfl

variable {r : Routine σ ε α} {f : α → Routine σ ε β}

@[simp] theorem yields_bind {Q : Except ε β → σ → Prop} :
    Yields (r >>= f) Q s ↔ Yields r (fun result s => match result with
        | .ok a => Yields (f a) Q s
        | .error e => Q (.error e) s) s := by
  unfold Yields
  rw [exec_bind]
  rcases r.exec s with _ | ⟨_ | a, s'⟩ <;> exact Iff.rfl

@[simp] theorem yields_ite {c : Prop} [Decidable c] {r' : Routine σ ε α} :
    Yields (if c then r else r') Q s ↔ (c → Yields r Q s) ∧ (¬c → Yields r' Q s) := by
  split <;> simp [*]

theorem Yields.mono {Q' : Except ε α → σ → Prop} (h : Yields r Q s)
    (himp : ∀ result s', Q result s' → Q' result s') : Yields r Q' s := by
  unfold Yields at h ⊢
  cases hexec : r.exec s with
  | none => simp [hexec] at h
  | some p =>
    rw [hexec] at h
    exact himp p.1 p.2 h

theorem Yields.bind {Q' : Except ε β → σ → Prop} (hr : Yields r Q s)
    (hok : ∀ a s', Q (.ok a) s' → Yields (f a) Q' s')
    (herror : ∀ e s', Q (.error e) s' → Q' (.error e) s') : Yields (r >>= f) Q' s := by
  rw [yields_bind]
  refine hr.mono fun result s' hmid => ?_
  cases result with
  | ok a => exact hok a s' hmid
  | error e => exact herror e s' hmid

variable {ι : Type} {P : σ → Prop}

/-- What every turn of a loop keeps, whether it goes on or returns an error, the loop keeps. -/
theorem yields_forM {items : List ι} {body : ι → Routine σ ε PUnit}
    (hbody : ∀ i ∈ items, ∀ s, P s → Yields (body i) (fun _ s' => P s') s) (h : P s) :
    Yields (items.forM body) (fun _ s' => P s') s := by
  induction items generalizing s with
  | nil => exact h
  | cons i items ih =>
    obtain ⟨hfirst, hrest⟩ := List.forall_mem_cons.mp hbody
    change Yields (body i >>= fun _ => items.forM body) _ s
    exact (hfirst s h).bind (fun _ s' h' => ih hrest h') fun _ _ h' => h'

theorem yields_foldlM {items : List ι} {body : β → ι → Routine σ ε β}
    (hbody : ∀ i ∈ items, ∀ b s, P s → Yields (body b i) (fun _ s' => P s') s) (b : β) (h : P s) :
    Yields (items.foldlM body b) (fun _ s' => P s') s := by
  induction items generalizing s b with
  | nil => exact h
  | cons i items ih =>
    obtain ⟨hfirst, hrest⟩ := List.forall_mem_cons.mp hbody
    rw [List.foldlM_cons]
    exact (hfirst b s h).bind (fun b' s' h' => ih hrest b' h') fun _ _ h' => h'

/-- From a state with `P` the routine does not panic and leaves one with `P`. -/
def Maintains (P : σ → Prop) (r : Routine σ ε α) : Prop :=
  ∀ s, P s → Yields r (fun _ s' => P s') s

section Maintains

variable {P : σ → Prop} {f : α → Routine σ ε β}

theorem maintains_pure : Maintains P (pure a : Routine σ ε α) := fun _ h => h

theorem maintains_throw {e : ε} : Maintains P (throw e : Routine σ ε α) := fun _ h => h

theorem maintains_lift_except : Maintains P (liftM result : Routine σ ε α) := fun _ h => h

theorem maintains_modify {f : σ → σ} (h : ∀ s, P s → P (f s)) :
    Maintains P (modify f : Routine σ ε PUnit) := h

theorem Maintains.bind (hr : Maintains P r) (hf : ∀ a, Maintains P (f a)) : Maintains P (r >>= f) :=
  fun s h => (hr s h).bind (fun a s' h' => hf a s' h') fun _ _ h' => h'

theorem Maintains.lift_bind {value : Option α} (hvalue : value = some a) (hf : Maintains P (f a)) :
    Maintains P (liftM value >>= f) := by
  rw [hvalue]
  exact fun s h => yields_bind.mpr (hf s h)

theorem Maintains.except_bind (hf : ∀ a, result = .ok a → Maintains P (f a)) :
    Maintains P (liftM result >>= f) := by
  cases result with
  | error e => exact fun s h => yields_bind.mpr h
  | ok a => exact fun s h => yields_bind.mpr (hf a rfl s h)

theorem Maintains.forM {items : List ι} {body : ι → Routine σ ε PUnit}
    (hbody : ∀ i ∈ items, Maintains P (body i)) : Maintains P (items.forM body) :=
  fun _ h => yields_forM hbody h

theorem Maintains.foldlM {items : List ι} {body : β → ι → Routine σ ε β}
    (hbody : ∀ i ∈ items, ∀ b, Maintains P (body b i)) (b : β) :
    Maintains P (items.foldlM body b) :=
  fun _ h => yields_foldlM (fun i hi b s h => hbody i hi b s h) b h

end Maintains

/-- The routine does not panic and leaves the state as it is, and a value it returns has `R`. -/
def Returns (R : α → Prop) (r : Routine σ ε α) : Prop :=
  ∀ s, Yields r (fun result s' => s' = s ∧ ∀ a, result = .ok a → R a) s

section Returns

variable {R : β → Prop} {f : α → Routine σ ε β}

theorem returns_pure {b : β} (h : R b) : Returns R (pure b : Routine σ ε β) :=
  fun _ => ⟨rfl, fun _ hok => Except.ok.inj hok ▸ h⟩

theorem returns_throw {e : ε} : Returns R (throw e : Routine σ ε β) :=
  fun _ => ⟨rfl, fun _ hok => nomatch hok⟩

theorem returns_lift_except :
    Returns (fun a => result = .ok a) (liftM result : Routine σ ε α) := fun _ => ⟨rfl, fun _ h => h⟩

variable {R' : α → Prop}

theorem Returns.andThen {Q : Except ε β → σ → Prop} (hr : Returns R' r)
    (hok : ∀ a, R' a → Yields (f a) Q s) (herror : ∀ e, Q (.error e) s) : Yields (r >>= f) Q s := by
  refine (hr s).bind ?_ ?_
  · rintro a _ ⟨rfl, ha⟩
    exact hok a (ha a rfl)
  · rintro e _ ⟨rfl, -⟩
    exact herror e

theorem Returns.maintains_bind {P : σ → Prop} (hr : Returns R' r)
    (hf : ∀ a, R' a → Maintains P (f a)) : Maintains P (r >>= f) :=
  fun s h => hr.andThen (fun a ha => hf a ha s h) fun _ => h

theorem Returns.maintains {P : σ → Prop} (hr : Returns R' r) : Maintains P r :=
  fun s h => (hr s).mono fun _ _ h' => h'.1 ▸ h

theorem Returns.bind (hr : Returns R' r) (hf : ∀ a, R' a → Returns R (f a)) : Returns R (r >>= f) :=
  fun s => hr.andThen (fun a ha => hf a ha s) fun _ => ⟨rfl, fun _ hok => nomatch hok⟩

theorem Returns.lift_bind {value : Option α} (hvalue : value = some a) (hf : Returns R (f a)) :
    Returns R (liftM value >>= f) := by
  rw [hvalue]
  exact fun s => yields_bind.mpr (hf s)

end Returns

/-- A routine on a value of its own: the value after it is returned. -/
def onValue {τ : Type} (t : τ) (r : Routine τ ε PUnit) : Routine σ ε τ :=
  match r.exec t with
  | none => liftM (none : Option τ)
  | some (.ok _, t') => pure t'
  | some (.error e, _) => throw e

theorem yields_onValue {τ : Type} {t : τ} {r : Routine τ ε PUnit} {Q : Except ε τ → σ → Prop} {P}
    (h : Yields r P t) (hok : ∀ t', P (.ok ⟨⟩) t' → Q (.ok t') s)
    (herror : ∀ e t', P (.error e) t' → Q (.error e) s) : Yields (onValue t r) Q s := by
  unfold Yields at h
  unfold onValue
  rcases hexec : r.exec t with _ | ⟨_ | _, t'⟩
  · rw [hexec] at h
    exact h.elim
  · rw [hexec] at h
    exact herror _ t' h
  · rw [hexec] at h
    exact hok t' h

theorem returns_onValue {τ : Type} {t : τ} {r : Routine τ ε PUnit} {P : τ → Prop}
    (hr : Maintains P r) (h : P t) : Returns P (onValue t r : Routine σ ε τ) := by
  intro s
  refine yields_onValue (hr t h) (fun t' ht' => ⟨rfl, fun a ha => ?_⟩)
    fun e t' _ => ⟨rfl, fun _ hok => nomatch hok⟩
  exact Except.ok.inj ha ▸ ht'

theorem Yields.exists_exec (h : Yields r Q s) :
    ∃ result s', r.exec s = some (result, s') ∧ Q result s' := by
  unfold Yields at h
  cases hexec : r.exec s with
  | none => simp [hexec] at h
  | some p =>
    rw [hexec] at h
    exact ⟨p.1, p.2, rfl, h⟩

end Routine

end Rust
