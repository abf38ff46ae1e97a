import Mathlib.Data.List.Forall2

/-!
# Wildcard patterns

`wildcard_match` of the telemetry consumer and `wildcardMatchChars` of the API are one
loop with one point to go back to: the last star, and the place in the value from which
the text after the star was last tried. What is left of the pattern and of the value
stands for the two indices.

A character of the pattern that equals the character of the value is taken as such
before it is looked at as a star. So a star that meets a star stands for it alone, and
the loop accepts less than the glob language in which a star stands for any text.
-/

namespace Talos.Telemetry

/-! ## The loop -/

/-- One turn after the other; `star` holds what follows the last star and the value from
where it was last tried. -/
def wildcardFrom (pattern value : List Char) (star : Option (List Char × List Char)) : Bool :=
  match value with
  | [] => pattern.all (· = '*')
  | x :: rest =>
    if pattern.head? = some '?' ∨ pattern.head? = some x then
      wildcardFrom pattern.tail rest star
    else if pattern.head? = some '*' then
      wildcardFrom pattern.tail (x :: rest) (some (pattern.tail, x :: rest))
    else
      match star with
      | some (after, _ :: tried) => wildcardFrom after tried (some (after, tried))
      | _ => false
termination_by (star.elim (pattern.length + 1) fun s => max pattern.length s.1.length,
  star.elim 0 fun s => s.2.length, pattern.length)
decreasing_by
  all_goals cases pattern <;> simp_all [Prod.lex_def]
  · cases star <;> simp; omega
  · cases star <;> simp only [Option.elim_none, Option.elim_some] <;> omega
  · omega

def wildcardMatch (pattern value : List Char) : Bool := wildcardFrom pattern value none

def wildcardMatchChars (pattern value : List Char) : Bool := wildcardFrom pattern value none

/-! ## Languages -/

/-- The glob language of a pattern. -/
inductive Glob : List Char → List Char → Prop
  | nil : Glob [] []
  | literal {c : Char} {pattern value : List Char} (hstar : c ≠ '*') (hany : c ≠ '?')
      (hrest : Glob pattern value) : Glob (c :: pattern) (c :: value)
  | any {x : Char} {pattern value : List Char} (hrest : Glob pattern value) :
      Glob ('?' :: pattern) (x :: value)
  | star {pattern value : List Char} (text : List Char) (hrest : Glob pattern value) :
      Glob ('*' :: pattern) (text ++ value)

def Taken (c x : Char) : Prop := c = '?' ∨ c = x

/-- The value is matched in a way in which a star of the pattern that meets a star of the
value stands for it alone. -/
inductive StarForStar : List Char → List Char → Prop
  | nil : StarForStar [] []
  | one {c x : Char} {pattern value : List Char} (htaken : Taken c x)
      (hrest : StarForStar pattern value) : StarForStar (c :: pattern) (x :: value)
  | star {pattern value rest : List Char} (hmeets : value.head? ≠ some '*')
      (hsuffix : rest <:+ value) (hrest : StarForStar pattern rest) :
      StarForStar ('*' :: pattern) value

variable {pattern value : List Char}

theorem StarForStar.glob (h : StarForStar pattern value) : Glob pattern value := by
  induction h with
  | nil => exact .nil
  | @one c x pattern value htaken _ ih =>
    rcases htaken with rfl | rfl
    · exact .any ih
    · by_cases hstar : c = '*'
      · subst hstar
        exact .star ['*'] ih
      · by_cases hany : c = '?'
        · subst hany
          exact .any ih
        · exact .literal hstar hany ih
  | star _ hsuffix _ ih =>
    obtain ⟨text, rfl⟩ := hsuffix
    exact .star text ih

theorem starForStar_cons {c x : Char} (htaken : Taken c x) :
    StarForStar (c :: pattern) (x :: value) ↔ StarForStar pattern value := by
  refine ⟨fun h => ?_, .one htaken⟩
  cases h with
  | one _ hrest => exact hrest
  | star hmeets =>
    rcases htaken with h | rfl
    · exact absurd h (by decide)
    · exact absurd rfl hmeets

theorem starForStar_nil : StarForStar pattern [] ↔ pattern.all (· = '*') = true := by
  induction pattern with
  | nil => exact iff_of_true .nil rfl
  | cons c pattern ih =>
    rw [List.all_cons, Bool.and_eq_true, decide_eq_true_iff, ← ih]
    constructor
    · intro h
      cases h with
      | star _ hsuffix hrest => exact ⟨rfl, List.suffix_nil.mp hsuffix ▸ hrest⟩
    · rintro ⟨rfl, hrest⟩
      exact .star (by simp) (List.suffix_refl _) hrest

theorem StarForStar.tail {c : Char} (h : StarForStar (c :: pattern) value) :
    ∃ rest, rest <:+ value ∧ StarForStar pattern rest := by
  cases h with
  | one _ hrest => exact ⟨_, List.suffix_cons _ _, hrest⟩
  | star _ hsuffix hrest => exact ⟨_, hsuffix, hrest⟩

theorem not_starForStar {x : Char} (htaken : ¬(pattern.head? = some '?' ∨ pattern.head? = some x))
    (hstar : pattern.head? ≠ some '*') : ¬StarForStar pattern (x :: value) := by
  intro h
  cases h with
  | one h => exact htaken (h.imp (congrArg some) (congrArg some))
  | star => exact hstar rfl

/-! ## What the loop accepts -/

variable {taken read : List Char}

theorem starForStar_append (htaken : List.Forall₂ Taken taken read) :
    StarForStar (taken ++ pattern) (read ++ value) ↔ StarForStar pattern value := by
  induction htaken with
  | nil => rfl
  | cons h _ ih => exact (starForStar_cons h).trans ih

/-- A match that begins later is not ahead in the pattern. -/
theorem exists_suffix_of_later (htaken : List.Forall₂ Taken taken read) {later : List Char}
    (hlater : later <:+ read ++ value) (h : StarForStar (taken ++ pattern) later) :
    ∃ rest, rest <:+ value ∧ StarForStar pattern rest := by
  induction htaken generalizing later with
  | nil => exact ⟨later, hlater, h⟩
  | @cons c x taken read hfirst _ ih =>
    rcases List.suffix_cons_iff.mp hlater with rfl | hlater
    · exact ih (List.suffix_refl _) ((starForStar_cons hfirst).mp h)
    · obtain ⟨rest, hsuffix, hrest⟩ := h.tail
      exact ih (hsuffix.trans hlater) hrest

/-- The text since the last star was taken character by character. -/
def Reached (pattern value : List Char) : Option (List Char × List Char) → Prop
  | none => True
  | some (after, tried) => ∃ taken read, after = taken ++ pattern ∧ tried = read ++ value ∧
      List.Forall₂ Taken taken read

def Accepts (pattern value : List Char) : Option (List Char × List Char) → Prop
  | none => StarForStar pattern value
  | some (after, tried) => ∃ rest, rest <:+ tried ∧ StarForStar after rest

theorem accepts_iff {star : Option (List Char × List Char)} (h : Reached pattern value star)
    (hmatch : ∀ rest, rest <:+ value → StarForStar pattern rest → StarForStar pattern value) :
    Accepts pattern value star ↔ StarForStar pattern value := by
  rcases star with _ | ⟨after, tried⟩
  · rfl
  · obtain ⟨taken, read, rfl, rfl, htaken⟩ := h
    constructor
    · rintro ⟨later, hlater, hrest⟩
      obtain ⟨rest, hsuffix, hrest⟩ := exists_suffix_of_later htaken hlater hrest
      exact hmatch rest hsuffix hrest
    · exact fun hrest => ⟨_, List.suffix_refl _, (starForStar_append htaken).mpr hrest⟩

theorem wildcardFrom_iff (pattern value : List Char) (star : Option (List Char × List Char))
    (h : Reached pattern value star) :
    wildcardFrom pattern value star = true ↔ Accepts pattern value star := by
  induction pattern, value, star using wildcardFrom.induct with
  | case1 pattern star =>
    rw [wildcardFrom, ← starForStar_nil, accepts_iff h]
    intro rest hsuffix hrest
    exact List.suffix_nil.mp hsuffix ▸ hrest
  | case2 pattern star x rest hhead ih =>
    simp only [wildcardFrom.eq_def pattern (x :: rest), if_pos hhead]
    obtain ⟨c, pattern, rfl⟩ : ∃ c pattern', pattern = c :: pattern' := by
      cases pattern <;> simp_all
    have hfirst : Taken c x := by simpa [Taken] using hhead
    rcases star with _ | ⟨after, tried⟩
    · exact (ih trivial).trans (starForStar_cons hfirst).symm
    · obtain ⟨taken, read, rfl, rfl, htaken⟩ := h
      refine ih ⟨taken ++ [c], read ++ [x], by simp, by simp, ?_⟩
      exact List.rel_append htaken (.cons hfirst .nil)
  | case3 pattern star x rest hhead hstar ih =>
    simp only [wildcardFrom.eq_def pattern (x :: rest), if_neg hhead, if_pos hstar]
    rw [ih ⟨[], [], rfl, rfl, .nil⟩]
    obtain ⟨pattern, rfl⟩ := List.head?_eq_some_iff.mp hstar
    have hmeets : (x :: rest).head? ≠ some '*' := fun hx => hhead (.inr (hstar.trans hx.symm))
    have hstart : ∀ later, later <:+ x :: rest → StarForStar ('*' :: pattern) later →
        StarForStar ('*' :: pattern) (x :: rest) := by
      intro later hlater hrest
      obtain ⟨rest', hsuffix, hrest⟩ := hrest.tail
      exact .star hmeets (hsuffix.trans hlater) hrest
    rw [accepts_iff h hstart]
    exact ⟨fun ⟨_, hsuffix, hrest⟩ => .star hmeets hsuffix hrest, StarForStar.tail⟩
  | case4 pattern x rest hhead hstar after y tried ih =>
    simp only [wildcardFrom.eq_def pattern (x :: rest), if_neg hhead, if_neg hstar]
    refine (ih ⟨[], [], rfl, rfl, .nil⟩).trans ⟨fun ⟨later, hlater, hrest⟩ =>
      ⟨later, hlater.trans (List.suffix_cons _ _), hrest⟩, fun ⟨later, hlater, hrest⟩ => ?_⟩
    rcases List.suffix_cons_iff.mp hlater with rfl | hlater
    · obtain ⟨taken, read, rfl, hread, htaken⟩ := h
      rw [hread, starForStar_append htaken] at hrest
      exact absurd hrest (not_starForStar hhead hstar)
    · exact ⟨later, hlater, hrest⟩
  | case5 pattern star x rest hhead hstar hnot =>
    rcases star with _ | ⟨after, _ | ⟨y, tried⟩⟩
    · simp only [wildcardFrom.eq_def pattern (x :: rest), if_neg hhead, if_neg hstar]
      exact iff_of_false Bool.false_ne_true (not_starForStar hhead hstar)
    · obtain ⟨taken, read, -, hread, -⟩ := h
      simp at hread
    · exact (hnot after y tried rfl).elim

/-- Both functions accept the values of the glob language, exactly where a star that meets
a star can stand for it alone. -/
theorem wildcard_matches_glob_iff (pattern value : List Char) :
    ((wildcardMatch pattern value = true ↔ Glob pattern value) ∧
      (wildcardMatchChars pattern value = true ↔ Glob pattern value)) ↔
      (Glob pattern value → StarForStar pattern value) := by
  have hmatch : wildcardMatch pattern value = true ↔ StarForStar pattern value :=
    wildcardFrom_iff pattern value none trivial
  have hsame : wildcardMatchChars pattern value = wildcardMatch pattern value := rfl
  rw [hsame, and_self_iff, hmatch]
  exact ⟨Iff.mpr, fun hglob => ⟨StarForStar.glob, hglob⟩⟩

theorem star_refuses_star : Glob ['*'] ['*', 'a'] ∧ wildcardMatch ['*'] ['*', 'a'] = false ∧
      wildcardMatchChars ['*'] ['*', 'a'] = false := by
  refine ⟨.star ['*', 'a'] .nil, ?_, ?_⟩ <;> simp [wildcardMatch, wildcardMatchChars, wildcardFrom]

end Talos.Telemetry
