import Mathlib.Data.List.Nodup
import Mathlib.Data.List.Sort
import Talos.Relational.Table

/-!
# Tables with a primary key

A keyed table cannot hold two rows of one key. A statement that keeps the key of
every row is an `Assignment`; what it does is said row by row, by `get?_update`,
so that a property of one row is followed without looking at the others. `choose`
is a subquery with `ORDER BY` and `LIMIT`. The last two sections are about columns
that a row moves through: final values, and values that make a row free to take.
-/

namespace Relational

structure Keyed {α κ : Type*} (key : α → κ) where
  rows : List α
  nodup : (rows.map key).Nodup

/-- An assignment that keeps the key. -/
structure Assignment {α κ : Type*} (key : α → κ) where
  apply : α → α
  key_eq : ∀ row, key (apply row) = key row

namespace Keyed

variable {α κ : Type*} {key : α → κ}

def update (t : Keyed key) (p : α → Bool) (set : Assignment key) : Keyed key where
  rows := Relational.update t.rows p set.apply
  nodup := by
    rw [map_update t.rows p set.apply key fun row _ => set.key_eq row]
    exact t.nodup

/-- `DELETE … WHERE …`. -/
def remove (t : Keyed key) (p : α → Bool) : Keyed key where
  rows := t.rows.filter (!p ·)
  nodup := t.nodup.sublist (List.filter_sublist.map key)

/-- The first `n` rows that satisfy `q`, in the order `le`. -/
def choose (t : Keyed key) (q : α → Bool) (le : α → α → Bool) (n : ℕ) : List α :=
  ((t.rows.filter q).insertionSort fun a b => le a b = true).take n

variable {row : α} {t : Keyed key}

theorem of_mem_choose {q : α → Bool} {le : α → α → Bool} {n : ℕ} (h : row ∈ t.choose q le n) :
    row ∈ t.rows ∧ q row = true :=
  List.mem_filter.mp ((List.mem_insertionSort _).mp (List.mem_of_mem_take h))

theorem choose_keys_nodup (t : Keyed key) (q : α → Bool) (le : α → α → Bool) (n : ℕ) :
    ((t.choose q le n).map key).Nodup := by
  have hfilter : ((t.rows.filter q).map key).Nodup := t.nodup.sublist (List.filter_sublist.map key)
  have hsorted : (((t.rows.filter q).insertionSort fun a b => le a b = true).map key).Nodup :=
    (((List.perm_insertionSort _ _).map key).nodup_iff).mpr hfilter
  exact hsorted.sublist ((List.take_sublist n _).map key)

theorem nodup_map_filterMap {β : Type*} {key' : β → κ} {rows : List α}
    (h : (rows.map key).Nodup) (f : α → Option β)
    (hkey : ∀ row row', f row = some row' → key' row' = key row) :
    ((rows.filterMap f).map key').Nodup := by
  rw [List.Nodup, List.pairwise_map] at h
  rw [List.Nodup, List.pairwise_map, List.pairwise_filterMap]
  refine h.imp fun {a b} hne a' ha b' hb => ?_
  rwa [hkey a a' ha, hkey b b' hb]

theorem eq_of_key_eq {row row' : α} (h : row ∈ t.rows) (h' : row' ∈ t.rows)
    (heq : key row = key row') : row = row' := List.inj_on_of_nodup_map t.nodup h h' heq

variable [DecidableEq κ]

def get? (t : Keyed key) (k : κ) : Option α := t.rows.find? fun row => key row = k

/-- A transaction of `INSERT`s, which fails when a key is taken. -/
def insertAll (t : Keyed key) (new : List α) : Option (Keyed key) :=
  if h : ((t.rows ++ new).map key).Nodup then some ⟨t.rows ++ new, h⟩ else none

theorem mem_of_get? {k : κ} (h : t.get? k = some row) : row ∈ t.rows := List.mem_of_find?_eq_some h

theorem key_of_get? {k : κ} (h : t.get? k = some row) : key row = k := by
  simpa using List.find?_some h

theorem get?_of_mem (h : row ∈ t.rows) : t.get? (key row) = some row := by
  cases hfind : t.get? (key row) with
  | none =>
    have hnot := List.find?_eq_none.mp hfind row h
    simp at hnot
  | some first =>
    rw [eq_of_key_eq (mem_of_get? hfind) h (key_of_get? hfind)]

theorem get?_update (t : Keyed key) (p : α → Bool) (set : Assignment key) (k : κ) :
    (t.update p set).get? k = (t.get? k).map fun row => if p row then set.apply row else row :=
  find?_update t.rows _ p set.apply fun row => by rw [set.key_eq row]

theorem get?_remove (t : Keyed key) (p : α → Bool) (k : κ) :
    (t.remove p).get? k = (t.get? k).filter (!p ·) := by
  cases hget : t.get? k with
  | none =>
    refine List.find?_eq_none.mpr fun row hmem => ?_
    exact List.find?_eq_none.mp hget row (List.mem_of_mem_filter hmem)
  | some row =>
    have hkey := key_of_get? hget
    cases hp : p row with
    | false =>
      have hmem : row ∈ (t.remove p).rows := List.mem_filter.mpr ⟨mem_of_get? hget, by simp [hp]⟩
      rw [← hkey, get?_of_mem hmem, Option.filter_some, hp]
      rfl
    | true =>
      rw [Option.filter_some, hp]
      refine List.find?_eq_none.mpr fun other hmem hother => ?_
      obtain ⟨hmem, hnot⟩ := List.mem_filter.mp hmem
      have hsame : other = row :=
        eq_of_key_eq hmem (mem_of_get? hget) ((of_decide_eq_true hother).trans hkey.symm)
      rw [hsame, hp] at hnot
      cases hnot

theorem get?_insertAll {t' : Keyed key} (h : t.insertAll [row] = some t') (k : κ) :
    t'.get? k = (t.get? k).or (if key row = k then some row else none) := by
  rw [insertAll] at h
  split at h
  · cases h
    simp only [get?, List.find?_append, List.find?_cons, List.find?_nil]
    congr 1
    split <;> simp_all
  · cases h

theorem exists_insertAll (t : Keyed key) (row : α) (h : t.get? (key row) = none) :
    ∃ t', t.insertAll [row] = some t' := by
  have hnot : key row ∉ t.rows.map key := by
    intro hmem
    obtain ⟨other, hother, hkey⟩ := List.mem_map.mp hmem
    have hfound := get?_of_mem hother
    rw [hkey, h] at hfound
    cases hfound
  have hnodup : ((t.rows ++ [row]).map key).Nodup := by
    rw [List.map_append]
    exact List.nodup_append.mpr ⟨t.nodup, List.nodup_singleton _, fun k hk k' hk' heq => by
      cases List.mem_singleton.mp hk'
      exact hnot (heq ▸ hk)⟩
  exact ⟨_, dif_pos hnodup⟩

/-! ## Rows whose status is final -/

section Status

variable {τ : Type*} (status : α → τ) (final : τ → Bool)

/-- Every row whose status is final is still there with that status. -/
def KeepsFinal (t t' : Keyed key) : Prop :=
  ∀ k row, t.get? k = some row → final (status row) = true →
    ∃ row', t'.get? k = some row' ∧ status row' = status row

theorem keepsFinal_refl (t : Keyed key) : KeepsFinal status final t t :=
  fun _ row hrow _ => ⟨row, hrow, rfl⟩

variable {status final} in
theorem KeepsFinal.trans {t t' t'' : Keyed key} (h : KeepsFinal status final t t')
    (h' : KeepsFinal status final t' t'') : KeepsFinal status final t t'' := by
  intro k row hrow hfinal
  obtain ⟨row', hrow', heq⟩ := h k row hrow hfinal
  obtain ⟨row'', hrow'', heq'⟩ := h' k row' hrow' (heq ▸ hfinal)
  exact ⟨row'', hrow'', heq'.trans heq⟩

theorem keepsFinal_update_iff (t : Keyed key) (p : α → Bool) (set : Assignment key) :
    KeepsFinal status final t (t.update p set) ↔
      ∀ row ∈ t.rows, p row = true → final (status row) = true →
        status (set.apply row) = status row := by
  constructor
  · intro h row hmem hp hfinal
    obtain ⟨row', hrow', heq⟩ := h (key row) row (get?_of_mem hmem) hfinal
    rw [get?_update, get?_of_mem hmem, Option.map_some, if_pos hp] at hrow'
    rwa [Option.some.inj hrow']
  · intro h k row hrow hfinal
    refine ⟨_, by rw [get?_update, hrow, Option.map_some], ?_⟩
    split
    next hp => exact h row (mem_of_get? hrow) hp hfinal
    next => rfl

end Status

/-! ## Rows that are taken at most once -/

section Taken

variable (free : α → Bool)

/-- The keys `taken` are distinct, and the rows they name are not free. -/
structure Taken (t : Keyed key) (taken : List κ) : Prop where
  nodup : taken.Nodup
  not_free : ∀ k ∈ taken, ∀ row, t.get? k = some row → free row = false

theorem taken_nil (t : Keyed key) : Taken free t [] :=
  ⟨List.nodup_nil, fun _ hk => absurd hk List.not_mem_nil⟩

variable {free} {t : Keyed key} {taken : List κ} {taken' : List κ}

theorem Taken.perm (h : Taken free t taken) (hperm : taken.Perm taken') : Taken free t taken' :=
  ⟨hperm.nodup_iff.mp h.nodup, fun k hk => h.not_free k (hperm.mem_iff.mpr hk)⟩

theorem Taken.sublist (h : Taken free t taken) (hsub : taken'.Sublist taken) :
    Taken free t taken' :=
  ⟨h.nodup.sublist hsub, fun k hk => h.not_free k (hsub.subset hk)⟩

theorem Taken.update (h : Taken free t taken) {p : α → Bool} {set : Assignment key}
    (hset : ∀ row ∈ t.rows, key row ∈ taken → p row = true → free row = false →
      free (set.apply row) = false) :
    Taken free (t.update p set) taken := by
  refine ⟨h.nodup, fun k hk row hrow => ?_⟩
  rw [get?_update] at hrow
  obtain ⟨old, hold, rfl⟩ := Option.map_eq_some_iff.mp hrow
  have hfree := h.not_free k hk old hold
  split
  next hp => exact hset old (mem_of_get? hold) ((key_of_get? hold).symm ▸ hk) hp hfree
  next => exact hfree

/-- A statement that takes free rows and leaves them not free. -/
theorem Taken.take (h : Taken free t taken) {ids : List κ} (hids : ids.Nodup)
    (hfree : ∀ k ∈ ids, ∃ row, t.get? k = some row ∧ free row = true)
    {set : Assignment key} (hset : ∀ row, free (set.apply row) = false) :
    Taken free (t.update (fun row => ids.contains (key row)) set) (taken ++ ids) := by
  have hupdate : Taken free (t.update (fun row => ids.contains (key row)) set) taken :=
    h.update fun row _ _ _ _ => hset row
  refine ⟨List.nodup_append.mpr ⟨h.nodup, hids, ?_⟩, ?_⟩
  · intro k hk k' hk' heq
    obtain ⟨row, hrow, htrue⟩ := hfree k' hk'
    have hfalse := h.not_free k hk row (heq ▸ hrow)
    rw [htrue] at hfalse
    cases hfalse
  · intro k hk row hrow
    rcases List.mem_append.mp hk with hold | hnew
    · exact hupdate.not_free k hold row hrow
    · rw [get?_update] at hrow
      obtain ⟨old, hget, rfl⟩ := Option.map_eq_some_iff.mp hrow
      have hin : ids.contains (key old) = true := by
        rw [key_of_get? hget]
        exact List.contains_iff_mem.mpr hnew
      rw [if_pos hin]
      exact hset old

end Taken

end Keyed

end Relational
