import Mathlib.Order.Lattice
import Mathlib.Data.List.Basic

/-!
# A register that keeps the latest event until a final one

Events carry a time and may be final. The register holds the last event it
accepted; it accepts an event when it holds nothing, or when the event it holds
is not final and not later. Deliveries may come in any order and repeatedly:
when one final event is among them and nothing is later than it, the register
ends with that event, and it has accepted a final event exactly once.
-/

namespace Convergence

variable {α τ : Type*} [LinearOrder τ] (time : α → τ) (final : α → Bool)

def accepts (held : Option α) (event : α) : Bool :=
  held.all fun last => !final last && decide (time last ≤ time event)

def receive (held : Option α) (event : α) : Option α :=
  if accepts time final held event then some event else held

def receiveAll (held : Option α) (events : List α) : Option α :=
  events.foldl (receive time final) held

/-- The deliveries that the register accepts, in order. -/
def accepted : Option α → List α → List α
  | _, [] => []
  | held, event :: events =>
    (if accepts time final held event then [event] else []) ++
      accepted (receive time final held event) events

/-- What the register holds may still be replaced by `event`. -/
def Open (event : α) (held : Option α) : Prop :=
  ∀ last, held = some last → final last = false ∧ time last ≤ time event

variable {time final}

variable {held : Option α}

theorem accepts_of_open {event : α} (h : Open time final event held) :
    accepts time final held event = true := by
  cases held with
  | none => rfl
  | some last =>
    obtain ⟨hfinal, htime⟩ := h last rfl
    simp [accepts, hfinal, htime]

variable {last : α}

theorem not_accepts_of_final (time : α → τ) (h : final last = true) (event : α) :
    accepts time final (some last) event = false := by
  simp [accepts, h]

theorem receive_of_accepts {event : α} (h : accepts time final held event = true) :
    receive time final held event = some event :=
  if_pos h

theorem receive_of_not_accepts {event : α} (h : accepts time final held event = false) :
    receive time final held event = held := by
  simp [receive, h]

theorem Open.receive {event other : α} (h : Open time final event held)
    (hfinal : final other = false) (htime : time other ≤ time event) :
    Open time final event (receive time final held other) := by
  unfold Convergence.receive
  split_ifs
  · rintro last ⟨⟩
    exact ⟨hfinal, htime⟩
  · exact h

theorem accepted_of_final (h : final last = true) (events : List α) :
    accepted time final (some last) events = [] := by
  induction events with
  | nil => rfl
  | cons event events ih =>
    have hrefused := not_accepts_of_final time h event
    rw [accepted, receive_of_not_accepts hrefused, ih, hrefused]
    rfl

theorem receiveAll_of_final (h : final last = true) (events : List α) :
    receiveAll time final (some last) events = some last := by
  induction events with
  | nil => rfl
  | cons event events ih =>
    have hrefused := not_accepts_of_final time h event
    rw [receiveAll, List.foldl_cons, receive_of_not_accepts hrefused]
    exact ih

@[simp] theorem receiveAll_nil (held : Option α) : receiveAll time final held [] = held := rfl

theorem receiveAll_append (held : Option α) (events later : List α) :
    receiveAll time final held (events ++ later) =
      receiveAll time final (receiveAll time final held events) later :=
  List.foldl_append

theorem accepted_append (held : Option α) (events later : List α) :
    accepted time final held (events ++ later) = accepted time final held events ++
        accepted time final (receiveAll time final held events) later := by
  induction events generalizing held with
  | nil => rfl
  | cons event events ih =>
    rw [List.cons_append, accepted, ih, accepted, List.append_assoc]
    rfl

/-- The final event is held at the end, and is the only final one accepted. -/
theorem deliveries_converge {events : List α} (hopen : Open time final last held)
    (hfinal : final last = true) (hmem : last ∈ events)
    (honly : ∀ event ∈ events, final event = true → event = last)
    (hlatest : ∀ event ∈ events, time event ≤ time last) :
    receiveAll time final held events = some last ∧
      (accepted time final held events).filter final = [last] := by
  induction events generalizing held with
  | nil => cases hmem
  | cons event events ih =>
    by_cases heq : event = last
    · subst heq
      have haccepts := accepts_of_open hopen
      rw [receiveAll, List.foldl_cons, accepted, receive_of_accepts haccepts, haccepts]
      refine ⟨receiveAll_of_final hfinal events, ?_⟩
      simp [accepted_of_final hfinal, hfinal]
    · have hnotFinal : final event = false := by
        by_contra hcontra
        exact heq (honly event (by simp) (by simpa using hcontra))
      have hopen' := hopen.receive hnotFinal (hlatest event (by simp))
      have hmem' : last ∈ events := (List.mem_cons.mp hmem).resolve_left fun h => heq h.symm
      obtain ⟨hheld, haccepted⟩ := ih hopen' hmem'
        (fun other hother => honly other (by simp [hother]))
        (fun other hother => hlatest other (by simp [hother]))
      refine ⟨hheld, ?_⟩
      rw [accepted, List.filter_append, haccepted]
      split_ifs <;> simp [hnotFinal]

end Convergence
