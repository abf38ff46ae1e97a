import Talos.Rust.Text

/-!
# Taking patterns out of a text

A text is redacted when every pattern of a list is replaced by one placeholder. If the
placeholder shares nothing with the patterns this is the same as taking the patterns out,
with a mark where one was, and filling in the placeholder for the marks at the end. No
pattern is left in the result, so in a text that is redacted piece by piece a pattern can
only stand across a border between two pieces.
-/

namespace Rust

variable {α : Type*} [BEq α] (patterns : List (List α)) (placeholder : List α)

/-- Every pattern is replaced by the placeholder, one pattern after the other. -/
def redact (text : List α) : List α :=
  patterns.foldl (fun text pattern =>
    if pattern.isEmpty then text else replaceFrom pattern placeholder 0 text) text

theorem redact_nil : redact patterns placeholder [] = [] := by
  induction patterns with
  | nil => rfl
  | cons pattern patterns ih =>
    have hfirst : (if pattern.isEmpty then [] else replaceFrom pattern placeholder 0 []) = [] := by
      split <;> rfl
    rw [redact, List.foldl_cons, hfirst]
    exact ih

/-- What is left of a text, with a mark for each pattern that was taken out. -/
def takeOut (text : List α) : List (Option α) :=
  patterns.foldl (fun marked pattern =>
    if pattern.isEmpty then marked else replaceFrom (pattern.map some) [none] 0 marked)
    (text.map some)

/-- The placeholder in the place of the marks. -/
def fill (marked : List (Option α)) : List α :=
  marked.flatMap fun
    | none => placeholder
    | some a => [a]

/-- A pattern that a border between two of the pieces cuts in two parts, with nothing of
either part taken out. -/
def Divides (pieces : List (List α)) : Prop :=
  ∃ before after first second, pieces = before ++ after ∧ first ≠ [] ∧ second ≠ [] ∧
    first ++ second ∈ patterns ∧ first.map some <:+ before.flatMap (takeOut patterns) ∧
    second.map some <+: after.flatMap (takeOut patterns)

/-! ## Replacing -/

section Replace

variable {pattern replacement : List α}

theorem replaceFrom_eq_drop (skip : ℕ) (text : List α) : replaceFrom pattern replacement skip text =
      replaceFrom pattern replacement 0 (text.drop skip) := by
  induction text generalizing skip with
  | nil => cases skip <;> rfl
  | cons a text ih =>
    cases skip with
    | zero => rfl
    | succ skip => exact ih skip

variable [LawfulBEq α]

theorem replaceFrom_append (hpattern : pattern ≠ []) (text : List α) :
    replaceFrom pattern replacement 0 (pattern ++ text) =
      replacement ++ replaceFrom pattern replacement 0 text := by
  cases pattern with
  | nil => exact absurd rfl hpattern
  | cons a pattern =>
    have hbegins : (a :: pattern).isPrefixOf (a :: (pattern ++ text)) = true :=
      List.isPrefixOf_iff_prefix.mpr ⟨text, rfl⟩
    rw [List.cons_append, replaceFrom, if_pos hbegins, replaceFrom_eq_drop]
    simp

theorem replaceFrom_cons_of_no_match {a : α} {text : List α} (hnot : ¬ pattern <+: a :: text) :
    replaceFrom pattern replacement 0 (a :: text) =
      a :: replaceFrom pattern replacement 0 text := by
  rw [replaceFrom, if_neg fun h => hnot (List.isPrefixOf_iff_prefix.mp h)]

theorem replaceFrom_append_of_disjoint (hpattern : pattern ≠ []) {part : List α}
    (hpart : ∀ a ∈ part, a ∉ pattern) (text : List α) :
    replaceFrom pattern replacement 0 (part ++ text) =
      part ++ replaceFrom pattern replacement 0 text := by
  induction part with
  | nil => rfl
  | cons a part ih =>
    have hnot : ¬ pattern <+: a :: (part ++ text) := by
      intro hbegins
      obtain rfl | ⟨rest, rfl, _⟩ := List.prefix_cons_iff.mp hbegins
      · exact hpattern rfl
      · exact hpart a List.mem_cons_self List.mem_cons_self
    rw [List.cons_append, replaceFrom_cons_of_no_match hnot,
      ih fun b hb => hpart b (List.mem_cons_of_mem a hb), List.cons_append]

end Replace

/-! ## Marks -/

section Fill

variable {β : Type*} {pattern : List β} {marked : List (Option β)} (placeholder : List β)

theorem fill_cons_some (a : β) (marked : List (Option β)) :
    fill placeholder (some a :: marked) = a :: fill placeholder marked := rfl

theorem fill_cons_none (marked : List (Option β)) :
    fill placeholder (none :: marked) = placeholder ++ fill placeholder marked := rfl

theorem fill_map_some (text : List β) : fill placeholder (text.map some) = text := by
  induction text with
  | nil => rfl
  | cons a text ih => rw [List.map_cons, fill_cons_some, ih]

theorem fill_append (marked marked' : List (Option β)) :
    fill placeholder (marked ++ marked') = fill placeholder marked ++ fill placeholder marked' :=
  List.flatMap_append

theorem not_map_some_prefix_none_cons (hpattern : pattern ≠ []) :
    ¬ pattern.map some <+: none :: marked := by
  intro hbegins
  cases pattern with
  | nil => exact hpattern rfl
  | cons a pattern => exact nomatch (List.cons_prefix_cons.mp hbegins).1

/-- A pattern that shares nothing with the placeholder is where it is without the placeholders. -/
theorem prefix_fill_iff {placeholder : List β} (hplaceholder : placeholder ≠ [])
    (hdisjoint : ∀ a ∈ placeholder, a ∉ pattern) :
    pattern <+: fill placeholder marked ↔ pattern.map some <+: marked := by
  induction pattern generalizing marked with
  | nil => exact iff_of_true List.nil_prefix List.nil_prefix
  | cons b pattern ih =>
    have hrest : ∀ a ∈ placeholder, a ∉ pattern := fun a ha hmem =>
      hdisjoint a ha (List.mem_cons_of_mem b hmem)
    cases marked with
    | nil => simp [fill]
    | cons m marked =>
      cases m with
      | some a =>
        rw [fill_cons_some, List.map_cons, List.cons_prefix_cons, List.cons_prefix_cons,
          ih hrest, Option.some_inj]
      | none =>
        obtain ⟨a, rest, rfl⟩ := List.exists_cons_of_ne_nil hplaceholder
        refine iff_of_false ?_ (not_map_some_prefix_none_cons (List.cons_ne_nil b pattern))
        rw [fill_cons_none, List.cons_append, List.cons_prefix_cons]
        rintro ⟨rfl, _⟩
        exact hdisjoint b List.mem_cons_self List.mem_cons_self

theorem infix_fill_iff {placeholder : List β} (hpattern : pattern ≠ [])
    (hplaceholder : placeholder ≠ []) (hdisjoint : ∀ a ∈ placeholder, a ∉ pattern) :
    pattern <:+: fill placeholder marked ↔ pattern.map some <:+: marked := by
  induction marked with
  | nil => simp [fill]
  | cons m marked ih =>
    rw [List.infix_cons_iff, ← prefix_fill_iff hplaceholder hdisjoint, ← ih]
    cases m with
    | some a => rw [fill_cons_some, List.infix_cons_iff]
    | none =>
      -- the pattern begins neither in the placeholder nor across its end
      rw [fill_cons_none, List.infix_append_iff]
      constructor
      · rintro (hinside | hinside | ⟨first, second, rfl, hfirst, hsecond⟩)
        · obtain ⟨b, rest, rfl⟩ := List.exists_cons_of_ne_nil hpattern
          exact absurd List.mem_cons_self (hdisjoint b (hinside.subset List.mem_cons_self))
        · exact .inr hinside
        · cases first with
          | nil => exact .inr hsecond.isInfix
          | cons b first =>
            exact absurd List.mem_cons_self (hdisjoint b (hfirst.subset List.mem_cons_self))
      · rintro (hbegins | hinside)
        · rw [← fill_cons_none, prefix_fill_iff hplaceholder hdisjoint] at hbegins
          exact absurd hbegins (not_map_some_prefix_none_cons hpattern)
        · exact .inr (.inl hinside)

end Fill

section Marks

variable {pattern : List α} {marked : List (Option α)}

/-- A part without marks is where it was before the pattern was taken out. -/
theorem prefix_of_prefix_replaceFrom {part : List α}
    (hpart : part.map some <+: replaceFrom (pattern.map some) [none] 0 marked) :
    part.map some <+: marked := by
  induction marked generalizing part with
  | nil => exact hpart
  | cons m marked ih =>
    cases part with
    | nil => exact List.nil_prefix
    | cons a part =>
      rw [replaceFrom] at hpart
      split at hpart
      · exact absurd hpart (not_map_some_prefix_none_cons (List.cons_ne_nil a part))
      · obtain ⟨rfl, hrest⟩ := List.cons_prefix_cons.mp hpart
        exact List.cons_prefix_cons.mpr ⟨rfl, ih hrest⟩

theorem infix_of_infix_replaceFrom {part : List α} (hpart : part ≠ []) {skip : ℕ}
    (hinside : part.map some <:+: replaceFrom (pattern.map some) [none] skip marked) :
    part.map some <:+: marked := by
  induction marked generalizing skip with
  | nil => cases skip <;> exact hinside
  | cons m marked ih =>
    cases skip with
    | succ skip => exact (ih hinside).trans (List.suffix_cons m marked).isInfix
    | zero =>
      by_cases hmatch : (pattern.map some).isPrefixOf (m :: marked) = true
      · rw [replaceFrom, if_pos hmatch] at hinside
        rcases List.infix_cons_iff.mp hinside with hbegins | hrest
        · exact absurd hbegins (not_map_some_prefix_none_cons hpart)
        · exact (ih hrest).trans (List.suffix_cons m marked).isInfix
      · rw [replaceFrom, if_neg hmatch] at hinside
        rcases List.infix_cons_iff.mp hinside with hbegins | hrest
        · have hbefore :
              part.map some <+: replaceFrom (pattern.map some) [none] 0 (m :: marked) := by
            rwa [replaceFrom, if_neg hmatch]
          exact (prefix_of_prefix_replaceFrom hbefore).isInfix
        · exact (ih hrest).trans (List.suffix_cons m marked).isInfix

variable [LawfulBEq α]

theorem not_infix_replaceFrom (hpattern : pattern ≠ []) (skip : ℕ) :
    ¬ pattern.map some <:+: replaceFrom (pattern.map some) [none] skip marked := by
  induction marked generalizing skip with
  | nil => cases skip <;> simpa [replaceFrom] using hpattern
  | cons m marked ih =>
    cases skip with
    | succ skip => exact ih skip
    | zero =>
      intro hinside
      by_cases hmatch : (pattern.map some).isPrefixOf (m :: marked) = true
      · rw [replaceFrom, if_pos hmatch] at hinside
        rcases List.infix_cons_iff.mp hinside with hbegins | hrest
        · exact not_map_some_prefix_none_cons hpattern hbegins
        · exact ih _ hrest
      · rw [replaceFrom, if_neg hmatch] at hinside
        rcases List.infix_cons_iff.mp hinside with hbegins | hrest
        · have hbefore : pattern.map some <+:
              replaceFrom (pattern.map some) [none] 0 (m :: marked) := by
            rwa [replaceFrom, if_neg hmatch]
          exact hmatch (List.isPrefixOf_iff_prefix.mpr (prefix_of_prefix_replaceFrom hbefore))
        · exact ih _ hrest

/-- Replacing and filling in the placeholder later is the same. -/
theorem replaceFrom_fill {placeholder : List α} (hpattern : pattern ≠ [])
    (hplaceholder : placeholder ≠ []) (hdisjoint : ∀ a ∈ placeholder, a ∉ pattern)
    (marked : List (Option α)) :
    replaceFrom pattern placeholder 0 (fill placeholder marked) =
      fill placeholder (replaceFrom (pattern.map some) [none] 0 marked) := by
  have hmarks : pattern.map some ≠ [] := by simpa using hpattern
  -- by the length, since a match takes the whole pattern away
  induction hlength : marked.length using Nat.strong_induction_on generalizing marked with
  | _ n ih =>
    subst hlength
    by_cases hmatch : pattern.map some <+: marked
    · obtain ⟨rest, rfl⟩ := hmatch
      have hshorter : rest.length < (pattern.map some ++ rest).length := by
        simpa using List.length_pos_of_ne_nil hpattern
      rw [fill_append, fill_map_some, replaceFrom_append hpattern, replaceFrom_append hmarks,
        ih _ hshorter rest rfl, List.singleton_append, fill_cons_none]
    · cases marked with
      | nil => rfl
      | cons m rest =>
        have hshorter : rest.length < (m :: rest).length := Nat.lt_succ_self _
        rw [replaceFrom_cons_of_no_match hmatch]
        cases m with
        | none =>
          rw [fill_cons_none, fill_cons_none, replaceFrom_append_of_disjoint hpattern hdisjoint,
            ih _ hshorter rest rfl]
        | some a =>
          have hnot : ¬ pattern <+: a :: fill placeholder rest := fun hbegins =>
            hmatch ((prefix_fill_iff hplaceholder hdisjoint).mp hbegins)
          rw [fill_cons_some, fill_cons_some, replaceFrom_cons_of_no_match hnot,
            ih _ hshorter rest rfl]

end Marks

/-! ## Redacting -/

section Redact

variable [LawfulBEq α] {patterns : List (List α)} {placeholder : List α}

/-- The placeholder can be filled in at the end. -/
theorem redact_eq_fill (hplaceholder : placeholder ≠ [])
    (hdisjoint : ∀ pattern ∈ patterns, ∀ a ∈ placeholder, a ∉ pattern) (text : List α) :
    redact patterns placeholder text = fill placeholder (takeOut patterns text) := by
  have hfold : ∀ marked : List (Option α), redact patterns placeholder (fill placeholder marked) =
        fill placeholder (patterns.foldl (fun marked pattern =>
          if pattern.isEmpty then marked else replaceFrom (pattern.map some) [none] 0 marked)
          marked) := by
    induction patterns with
    | nil => exact fun _ => rfl
    | cons pattern patterns ih =>
      intro marked
      have hrest := ih fun p hp => hdisjoint p (List.mem_cons_of_mem pattern hp)
      rw [redact, List.foldl_cons, List.foldl_cons]
      by_cases hempty : pattern.isEmpty
      · rw [if_pos hempty, if_pos hempty]
        exact hrest marked
      · have hpattern : pattern ≠ [] := by simpa using hempty
        rw [if_neg hempty, if_neg hempty, replaceFrom_fill hpattern hplaceholder
          (hdisjoint pattern List.mem_cons_self)]
        exact hrest _
  rw [takeOut, ← hfold, fill_map_some]

theorem not_infix_takeOut {pattern : List α} (hmem : pattern ∈ patterns) (hpattern : pattern ≠ [])
    (text : List α) : ¬ pattern.map some <:+: takeOut patterns text := by
  have hkeep : ∀ (patterns : List (List α)) (marked : List (Option α)),
      ¬ pattern.map some <:+: marked →
      ¬ pattern.map some <:+: patterns.foldl (fun marked pattern =>
        if pattern.isEmpty then marked else replaceFrom (pattern.map some) [none] 0 marked)
        marked := by
    intro patterns
    induction patterns with
    | nil => exact fun _ hnot => hnot
    | cons other patterns ih =>
      intro marked hnot
      rw [List.foldl_cons]
      refine ih _ ?_
      split
      · exact hnot
      · exact fun hinside => hnot (infix_of_infix_replaceFrom hpattern hinside)
  obtain ⟨before, after, rfl⟩ := List.append_of_mem hmem
  rw [takeOut, List.foldl_append, List.foldl_cons]
  refine hkeep after _ ?_
  rw [if_neg (by simpa using hpattern)]
  exact not_infix_replaceFrom hpattern 0

/-- In pieces that are redacted one by one a pattern is left exactly where a border divides
it. -/
theorem infix_flatMap_redact_iff (hpatterns : ∀ pattern ∈ patterns, pattern ≠ [])
    (hplaceholder : placeholder ≠ [])
    (hdisjoint : ∀ pattern ∈ patterns, ∀ a ∈ placeholder, a ∉ pattern)
    (pieces : List (List α)) :
    (∃ pattern ∈ patterns, pattern <:+: pieces.flatMap (redact patterns placeholder)) ↔
      Divides patterns pieces := by
  have hfill : pieces.flatMap (redact patterns placeholder) =
      fill placeholder (pieces.flatMap (takeOut patterns)) := by
    rw [fill, List.flatMap_assoc]
    exact List.flatMap_congr fun text _ => redact_eq_fill hplaceholder hdisjoint text
  have hinside : ∀ pattern ∈ patterns, (pattern <:+: pieces.flatMap (redact patterns placeholder) ↔
        pattern.map some <:+: pieces.flatMap (takeOut patterns)) := by
    intro pattern hmem
    rw [hfill, infix_fill_iff (hpatterns pattern hmem) hplaceholder (hdisjoint pattern hmem)]
  constructor
  · rintro ⟨pattern, hmem, hleft⟩
    rw [hinside pattern hmem] at hleft
    clear hfill hinside
    induction pieces with
    | nil =>
      rw [List.flatMap_nil, List.infix_nil, List.map_eq_nil_iff] at hleft
      exact absurd hleft (hpatterns pattern hmem)
    | cons piece pieces ih =>
      rw [List.flatMap_cons, List.infix_append_iff] at hleft
      have hlater : pattern.map some <:+: pieces.flatMap (takeOut patterns) →
          Divides patterns (piece :: pieces) := by
        intro hleft
        obtain ⟨before, after, first, second, rfl, hne, hne', hmem', hfirst, hsecond⟩ := ih hleft
        refine ⟨piece :: before, after, first, second, rfl, hne, hne', hmem', ?_, hsecond⟩
        rw [List.flatMap_cons]
        exact hfirst.trans (List.suffix_append _ _)
      have hclean := not_infix_takeOut hmem (hpatterns pattern hmem) piece
      rcases hleft with hleft | hleft | ⟨_, _, hsplit, hfirst, hsecond⟩
      · exact absurd hleft hclean
      · exact hlater hleft
      · obtain ⟨first, second, rfl, rfl, rfl⟩ := List.map_eq_append_iff.mp hsplit
        by_cases hne : first = []
        · subst hne
          exact hlater hsecond.isInfix
        · by_cases hne' : second = []
          · subst hne'
            rw [List.append_nil] at hclean
            exact absurd hfirst.isInfix hclean
          · refine ⟨[piece], pieces, first, second, rfl, hne, hne', hmem, ?_, hsecond⟩
            rwa [List.flatMap_singleton]
  · rintro ⟨before, after, first, second, rfl, hne, hne', hmem, hfirst, hsecond⟩
    refine ⟨_, hmem, (hinside _ hmem).mpr ?_⟩
    rw [List.flatMap_append, List.map_append, List.infix_append_iff]
    exact .inr (.inr ⟨_, _, rfl, hfirst, hsecond⟩)

end Redact

end Rust
