import Mathlib.Data.List.Basic

/-!
# The path of a URL

A client makes a path of texts, and the parser of the URL makes segments of the path again.
A plain text comes out as it went in. Others end the path, add segments to it or take some
away.
-/

namespace Rust

/-- Each text after a slash. -/
def slashed (texts : List (List Char)) : List Char := texts.flatMap ('/' :: ·)

def isSlash (c : Char) : Bool := c = '/' || c = '\\'

def isPathEnd (c : Char) : Bool := c = '?' || c = '#'

/-- What the parser takes out of the text. -/
def isTabOrNewline (c : Char) : Bool := c = '\t' || c = '\n' || c = '\r'

def singleDots : List (List Char) := [".".toList, "%2e".toList, "%2E".toList]

def doubleDots : List (List Char) := singleDots.flatMap fun dot => singleDots.map (dot ++ ·)

/-- Dot segments go, two dots with the segment before; at the end an empty one is left. -/
def resolveDots : List (List Char) → List (List Char) → List (List Char)
  | parents, [] => parents.reverse
  | parents, segment :: rest =>
    let closed := fun kept => if rest.isEmpty then [] :: kept else kept
    if segment ∈ doubleDots then resolveDots (closed parents.tail) rest
    else if segment ∈ singleDots then resolveDots (closed parents) rest
    else resolveDots (segment :: parents) rest

/-- The segments of a path that begins with a slash. -/
def pathSegments (path : List Char) : List (List Char) :=
  let text := (path.filter (!isTabOrNewline ·)).takeWhile (!isPathEnd ·)
  resolveDots [] (text.splitOnP isSlash).tail

/-! ## Plain texts -/

def isPlainChar (c : Char) : Bool := !(isSlash c || isPathEnd c || isTabOrNewline c || c = '%')

def Plain (text : List Char) : Prop :=
  text ≠ [] ∧ text ∉ singleDots ∧ text ∉ doubleDots ∧ text.all isPlainChar = true

instance (text : List Char) : Decidable (Plain text) := inferInstanceAs (Decidable (_ ∧ _))

theorem splitOnP_slashed {text : List Char} {texts : List (List Char)}
    (h : ∀ t ∈ text :: texts, Plain t) :
    (text ++ slashed texts).splitOnP isSlash = text :: texts := by
  have hslash : ∀ t, Plain t → ∀ c ∈ t, isSlash c = false := by
    intro t ht c hc
    have hchar := List.all_eq_true.mp ht.2.2.2 c hc
    simp only [isPlainChar, Bool.not_eq_true', Bool.or_eq_false_iff] at hchar
    exact hchar.1.1.1
  induction texts generalizing text with
  | nil =>
    rw [slashed, List.flatMap_nil, List.append_nil]
    exact List.splitOnP_eq_singleton (hslash _ (h _ List.mem_cons_self))
  | cons next texts ih =>
    rw [slashed, List.flatMap_cons, List.cons_append,
      List.splitOnP_append_cons_of_forall_mem (hslash _ (h _ List.mem_cons_self)) '/' rfl]
    exact congrArg (text :: ·) (ih fun t ht => h t (List.mem_cons_of_mem _ ht))

theorem resolveDots_plain {texts : List (List Char)} (h : ∀ t ∈ texts, Plain t)
    (parents : List (List Char)) : resolveDots parents texts = parents.reverse ++ texts := by
  induction texts generalizing parents with
  | nil => simp [resolveDots]
  | cons text texts ih =>
    obtain ⟨-, hsingle, hdouble, -⟩ := h text List.mem_cons_self
    rw [resolveDots, if_neg hdouble, if_neg hsingle, ih fun t ht => h t (List.mem_cons_of_mem _ ht)]
    simp

theorem pathSegments_slashed {texts : List (List Char)} (h : ∀ t ∈ texts, Plain t)
    (hsome : texts ≠ []) : pathSegments (slashed texts) = texts := by
  have hchars : ∀ c ∈ slashed texts, isTabOrNewline c = false ∧ isPathEnd c = false := by
    intro c hc
    obtain ⟨text, htext, hc⟩ := List.mem_flatMap.mp hc
    rcases List.mem_cons.mp hc with rfl | hc
    · decide
    · have hchar := List.all_eq_true.mp (h text htext).2.2.2 c hc
      simp only [isPlainChar, Bool.not_eq_true', Bool.or_eq_false_iff] at hchar
      exact ⟨hchar.1.2, hchar.1.1.2⟩
  have htext : ((slashed texts).filter (!isTabOrNewline ·)).takeWhile (!isPathEnd ·) =
      slashed texts := by
    rw [List.filter_eq_self.mpr fun c hc => by simp [(hchars c hc).1],
      ← List.append_nil (slashed texts), List.takeWhile_append_of_pos fun c hc => by
        simp [(hchars c hc).2]]
    rfl
  unfold pathSegments
  dsimp only
  rw [htext]
  cases texts with
  | nil => exact absurd rfl hsome
  | cons text texts =>
    have hsplit : (slashed (text :: texts)).splitOnP isSlash = [] :: text :: texts := by
      rw [slashed, List.flatMap_cons, List.cons_append, ← List.nil_append ('/' :: _),
        List.splitOnP_append_cons_of_forall_mem (fun _ hc => by cases hc) '/' rfl]
      exact congrArg ([] :: ·) (splitOnP_slashed h)
    rw [hsplit, List.tail_cons, resolveDots_plain h]
    rfl

end Rust
