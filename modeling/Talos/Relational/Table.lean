import Mathlib.Data.List.Basic
import Mathlib.Data.List.Pairwise

/-!
# Tables of a relational database

A table is the list of its rows. `update` is `UPDATE … SET … WHERE …`, and
`UniqueOn key rows` is a unique index: a row whose key is `none` (a null in an
indexed column) conflicts with nothing. A statement that keeps the key of every
row keeps the index, and an insertion keeps it when the new key is not taken.
-/

namespace Relational

variable {α β κ : Type*}

/-- The rows that satisfy `p` are replaced by their image under `f`. -/
def update (rows : List α) (p : α → Bool) (f : α → α) : List α :=
  rows.map fun row => if p row then f row else row

/-- A unique index on a nullable key. -/
def UniqueOn (key : α → Option κ) (rows : List α) : Prop :=
  rows.Pairwise fun a b => ∀ k, key a = some k → key b ≠ some k

instance [DecidableEq κ] (key : α → Option κ) (rows : List α) : Decidable (UniqueOn key rows) :=
  inferInstanceAs (Decidable (rows.Pairwise fun a b => ∀ k ∈ key a, key b ≠ some k))

def taken [DecidableEq κ] (key : α → Option κ) (rows : List α) (row : α) : Bool :=
  (key row).isSome && rows.any fun other => key other = key row

variable {row : α} {rows : List α} {p : α → Bool}

theorem mem_update {f : α → α} :
    row ∈ update rows p f ↔ ∃ old ∈ rows, (if p old then f old else old) = row := by
  simp [update]

theorem mem_update_of_mem (h : row ∈ rows) (p : α → Bool) (f : α → α) :
    (if p row then f row else row) ∈ update rows p f :=
  mem_update.mpr ⟨row, h, rfl⟩

theorem mem_update_of_not (h : row ∈ rows) (hp : p row = false) (f : α → α) :
    row ∈ update rows p f := by
  simpa [hp] using mem_update_of_mem h p f

/-- A statement whose every match is left as it was changes nothing. -/
theorem update_eq_self {f : α → α} (h : ∀ row ∈ rows, p row = true → f row = row) :
    update rows p f = rows := by
  unfold update
  conv_rhs => rw [← List.map_id rows]
  apply List.map_congr_left
  intro row hrow
  by_cases hp : p row = true
  · simp [hp, h row hrow hp]
  · simp [hp]

theorem filter_update (rows : List α) (p q : α → Bool) (f : α → α)
    (h : ∀ row, p row = true → q (f row) = q row) :
    (update rows p f).filter q = update (rows.filter q) p f := by
  unfold update
  rw [List.filter_map]
  congr 1
  apply List.filter_congr
  intro row _
  by_cases hp : p row = true
  · simp [hp, h row hp]
  · simp [hp]

theorem map_update (rows : List α) (p : α → Bool) (f : α → α) (g : α → β)
    (h : ∀ row, p row = true → g (f row) = g row) :
    (update rows p f).map g = rows.map g := by
  unfold update
  rw [List.map_map]
  apply List.map_congr_left
  intro row _
  by_cases hp : p row = true
  · simp [hp, h row hp]
  · simp [hp]

/-- A search by a predicate that the assignment does not affect finds the same
row, assigned. -/
theorem find?_update (rows : List α) (q p : α → Bool) (f : α → α) (h : ∀ row, q (f row) = q row) :
    (update rows p f).find? q = (rows.find? q).map fun row => if p row then f row else row := by
  unfold update
  rw [List.find?_map]
  congr 2
  funext row
  by_cases hp : p row = true
  · simp [hp, h row]
  · simp [hp]

section UniqueOn

variable {key : α → Option κ} {rows : List α}

theorem uniqueOn_iff_map : UniqueOn key rows ↔ UniqueOn id (rows.map key) := by
  simp [UniqueOn, List.pairwise_map]

variable {rows' : List α}

theorem uniqueOn_iff_of_map_eq (h : rows'.map key = rows.map key) :
    UniqueOn key rows' ↔ UniqueOn key rows := by
  rw [uniqueOn_iff_map, h, ← uniqueOn_iff_map]

theorem UniqueOn.update (hu : UniqueOn key rows) (p : α → Bool) (f : α → α)
    (h : ∀ row, p row = true → key (f row) = key row) :
    UniqueOn key (update rows p f) :=
  (uniqueOn_iff_of_map_eq (map_update rows p f key h)).mpr hu

/-- The rows after a statement that gives no row a new key, but may take its key away. -/
def Subkeyed (key : α → Option κ) (rows rows' : List α) : Prop :=
  ∃ f : α → α, rows' = rows.map f ∧ ∀ row ∈ rows, ∀ k, key (f row) = some k → key row = some k

theorem Subkeyed.refl (key : α → Option κ) (rows : List α) : Subkeyed key rows rows :=
  ⟨id, (List.map_id rows).symm, fun _ _ _ h => h⟩

theorem Subkeyed.trans {rows'' : List α} (h : Subkeyed key rows rows')
    (h' : Subkeyed key rows' rows'') : Subkeyed key rows rows'' := by
  obtain ⟨f, rfl, hf⟩ := h
  obtain ⟨g, rfl, hg⟩ := h'
  refine ⟨g ∘ f, List.map_map, fun row hrow k hk => ?_⟩
  exact hf row hrow k (hg (f row) (List.mem_map_of_mem hrow) k hk)

theorem subkeyed_update (p : α → Bool) (f : α → α)
    (h : ∀ row ∈ rows, p row = true → ∀ k, key (f row) = some k → key row = some k) :
    Subkeyed key rows (Relational.update rows p f) := by
  refine ⟨_, rfl, fun row hrow k hk => ?_⟩
  split at hk
  next hp => exact h row hrow hp k hk
  next => exact hk

variable {k : κ}

theorem Subkeyed.exists_key (h : Subkeyed key rows rows') (hrow : row ∈ rows')
    (hk : key row = some k) : ∃ old ∈ rows, key old = some k := by
  obtain ⟨f, rfl, hf⟩ := h
  obtain ⟨old, hold, rfl⟩ := List.mem_map.mp hrow
  exact ⟨old, hold, hf old hold k hk⟩

theorem UniqueOn.of_subkeyed (hu : UniqueOn key rows) (h : Subkeyed key rows rows') :
    UniqueOn key rows' := by
  obtain ⟨f, rfl, hf⟩ := h
  rw [UniqueOn, List.pairwise_map]
  refine List.Pairwise.imp_of_mem (fun {a b} ha hb hab k hak hbk => ?_) hu
  exact hab k (hf a ha k hak) (hf b hb k hbk)

theorem UniqueOn.append_singleton [DecidableEq κ] (hu : UniqueOn key rows)
    (h : taken key rows row = false) : UniqueOn key (rows ++ [row]) := by
  refine List.pairwise_append.mpr ⟨hu, List.pairwise_singleton _ _, ?_⟩
  intro a ha b hb k hak hbk
  rw [List.mem_singleton.mp hb] at hbk
  have htaken : taken key rows row = true := by
    simp only [taken, hbk, Option.isSome_some, Bool.true_and, List.any_eq_true, decide_eq_true_eq]
    exact ⟨a, ha, hak⟩
  simp [htaken] at h

theorem UniqueOn.eq_of_key (hu : UniqueOn key rows) {a b : α} (ha : a ∈ rows) (hb : b ∈ rows)
    (hak : key a = some k) (hbk : key b = some k) : a = b := by
  induction rows with
  | nil => simp at ha
  | cons row rows ih =>
    obtain ⟨hhead, htail⟩ := List.pairwise_cons.mp hu
    rcases List.mem_cons.mp ha with rfl | ha' <;> rcases List.mem_cons.mp hb with rfl | hb'
    · rfl
    · exact absurd hbk (hhead b hb' k hak)
    · exact absurd hak (hhead a ha' k hbk)
    · exact ih htail ha' hb'

theorem UniqueOn.find?_eq_some [DecidableEq κ] (hu : UniqueOn key rows) (hrow : row ∈ rows)
    (hk : key row = some k) : rows.find? (fun other => key other = some k) = some row := by
  cases hfind : rows.find? fun other => key other = some k with
  | none =>
    have hnot := List.find?_eq_none.mp hfind row hrow
    simp [hk] at hnot
  | some first =>
    have hfirst : key first = some k := by simpa using List.find?_some hfind
    rw [hu.eq_of_key (List.mem_of_find?_eq_some hfind) hrow hfirst hk]

end UniqueOn

end Relational
