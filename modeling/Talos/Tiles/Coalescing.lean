import Talos.Tiles.Packing

/-!
# What coalescing leaves

The rectangles that come out of `coalesceDirtyRects` cover every pixel of the input, stay in
its bounding box and are apart: no two of them would be merged. A union may have to be merged
with rectangles that stood apart from both of its parts, so the loop starts over with every
union; it ends when the pending rectangle is apart from all others.
-/

namespace Talos.Tiles

namespace DirtyRect

/-- The rectangle lies in the box. -/
structure Within (box rect : DirtyRect) : Prop where
  left_le : box.left ≤ rect.left
  top_le : box.top ≤ rect.top
  le_right : rect.right ≤ box.right
  le_bottom : rect.bottom ≤ box.bottom

theorem Within.union {box a b : DirtyRect} (ha : Within box a) (hb : Within box b) :
    Within box (a.union b) where
  left_le := le_min ha.left_le hb.left_le
  top_le := le_min ha.top_le hb.top_le
  le_right := max_le ha.le_right hb.le_right
  le_bottom := max_le ha.le_bottom hb.le_bottom

def Apart (a b : DirtyRect) : Prop := a.shouldMerge b = false

theorem union_comm (a b : DirtyRect) : a.union b = b.union a := by
  simp only [union, min_comm, max_comm]

theorem Apart.symm {a b : DirtyRect} (h : Apart a b) : Apart b a := by
  have htouch : b.touchOrOverlap a = a.touchOrOverlap b := by
    simp only [touchOrOverlap, Bool.and_comm, Bool.and_left_comm, Bool.and_assoc]
  unfold Apart shouldMerge at *
  rwa [htouch, union_comm, Rust.saturatingAdd, Nat.add_comm]

end DirtyRect

open DirtyRect

variable {merged : List DirtyRect} {pending : DirtyRect}

theorem forall_apart (h : merged.findIdx? (·.shouldMerge pending) = none) :
    ∀ rect ∈ merged, Apart rect pending := by
  simpa [Apart, List.findIdx?_eq_none_iff] using h

theorem absorb_of_apart (h : ∀ rect ∈ merged, Apart rect pending) (fuel : ℕ) :
    absorb fuel merged pending = merged ++ [pending] := by
  have hnone : merged.findIdx? (·.shouldMerge pending) = none := by
    simpa [Apart, List.findIdx?_eq_none_iff] using h
  cases fuel with
  | zero => rfl
  | succ fuel => rw [absorb, hnone]

theorem length_swapRemove (pending : DirtyRect) {index : ℕ} (h : index < merged.length) :
    (swapRemove merged index).length + 1 = merged.length :=
  (swapRemove_perm pending h).length_eq

/-- The loop is over before the fuel is. -/
theorem absorb_eq_of_le {fuel : ℕ} (h : merged.length ≤ fuel) :
    absorb fuel merged pending = absorb merged.length merged pending := by
  induction fuel generalizing merged pending with
  | zero => rw [Nat.le_zero.mp h]
  | succ fuel ih =>
    cases hindex : merged.findIdx? (·.shouldMerge pending) with
    | none =>
      rw [absorb_of_apart (forall_apart hindex), absorb_of_apart (forall_apart hindex)]
    | some index =>
      have hlength := length_swapRemove pending (List.findIdx?_eq_some_iff_getElem.1 hindex).1
      rw [← hlength]
      simp only [absorb, hindex]
      exact ih (by omega)

theorem pairwise_absorb {fuel : ℕ} (hfuel : merged.length ≤ fuel) (h : merged.Pairwise Apart) :
    (absorb fuel merged pending).Pairwise Apart := by
  induction fuel generalizing merged pending with
  | zero =>
    rw [List.length_eq_zero_iff.mp (Nat.le_zero.mp hfuel)]
    exact List.pairwise_singleton ..
  | succ fuel ih =>
    cases hindex : merged.findIdx? (·.shouldMerge pending) with
    | none =>
      rw [absorb_of_apart (forall_apart hindex), List.pairwise_append]
      refine ⟨h, List.pairwise_singleton .., fun rect hrect other hother => ?_⟩
      rw [List.mem_singleton.mp hother]
      exact forall_apart hindex rect hrect
    | some index =>
      have hlt := (List.findIdx?_eq_some_iff_getElem.1 hindex).1
      have hlength := length_swapRemove pending hlt
      have hpairwise := ((swapRemove_perm pending hlt).pairwise_iff Apart.symm).mpr h
      simp only [absorb, hindex]
      exact ih (by omega) hpairwise.of_cons

variable (rects : List DirtyRect)

theorem pairwise_sortRects :
    (sortRects rects).Pairwise fun a b => decide (a.key ≤ b.key) = true := by
  refine List.pairwise_mergeSort (fun a b c hab hbc => ?_) (fun a b => ?_) rects
  · simp only [decide_eq_true_eq] at *
    exact hab.trans hbc
  · simpa using le_total a.key b.key

theorem sortRects_of_pairwise {rects : List DirtyRect}
    (h : rects.Pairwise fun a b => decide (a.key ≤ b.key) = true) : sortRects rects = rects :=
  List.mergeSort_of_pairwise h

theorem pairwise_coalesce : (coalesceDirtyRects rects).Pairwise Apart := by
  rw [coalesceDirtyRects, sortRects, (List.mergeSort_perm _ _).pairwise_iff Apart.symm]
  exact List.foldlRecOn (motive := List.Pairwise Apart) _ _ List.Pairwise.nil
    fun merged hmerged rect _ => pairwise_absorb le_rfl hmerged

/-- Rectangles that are apart are pushed one by one. -/
theorem foldl_absorb_of_pairwise (rects merged : List DirtyRect)
    (h : (merged ++ rects).Pairwise Apart) :
    rects.foldl (fun merged rect => absorb merged.length merged rect) merged = merged ++ rects := by
  induction rects generalizing merged with
  | nil => simp
  | cons rect rects ih =>
    have hapart : ∀ other ∈ merged, Apart other rect := fun other hother =>
      (List.pairwise_append.mp h).2.2 other hother rect List.mem_cons_self
    rw [List.foldl_cons, absorb_of_apart hapart, ih _ (by simpa using h), List.append_assoc]
    rfl

theorem coalesce_coalesce :
    coalesceDirtyRects (coalesceDirtyRects rects) = coalesceDirtyRects rects := by
  have hsorted : sortRects (coalesceDirtyRects rects) = coalesceDirtyRects rects :=
    sortRects_of_pairwise (pairwise_sortRects _)
  have hfold := foldl_absorb_of_pairwise (coalesceDirtyRects rects) [] (pairwise_coalesce rects)
  rw [coalesceDirtyRects, hsorted, hfold, List.nil_append, hsorted]

/-- Coalescing ends, keeps every pixel, stays in every box around the input, leaves no two
rectangles that should be merged and does nothing the second time. -/
theorem coalesceDirtyRects_spec (rects : List DirtyRect) :
    (∀ merged pending fuel, merged.length ≤ fuel →
      absorb fuel merged pending = absorb merged.length merged pending) ∧
    (∀ x y, (∃ rect ∈ rects, rect.Covers x y) →
      ∃ rect ∈ coalesceDirtyRects rects, rect.Covers x y) ∧
    (∀ box, (∀ rect ∈ rects, Within box rect) →
      ∀ rect ∈ coalesceDirtyRects rects, Within box rect) ∧
    (coalesceDirtyRects rects).Pairwise
      (fun a b => a.shouldMerge b = false ∧ b.shouldMerge a = false) ∧
    coalesceDirtyRects (coalesceDirtyRects rects) = coalesceDirtyRects rects :=
  ⟨fun _ _ _ h => absorb_eq_of_le h, fun _ _ h => covers_coalesce h,
    fun _ h => forall_coalesce (fun _ _ => Within.union) h,
    (pairwise_coalesce rects).imp fun h => ⟨h, h.symm⟩, coalesce_coalesce rects⟩

end Talos.Tiles
