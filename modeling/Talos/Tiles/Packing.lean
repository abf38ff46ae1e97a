import Mathlib.Data.Finset.Card
import Mathlib.Data.Finset.Prod
import Mathlib.Data.List.GetD
import Mathlib.Data.List.Nodup
import Talos.Rust.Core

/-!
# Packing dirty rectangles into an atlas

The dirty rectangles of a frame are merged greedily, cut to the size of a texture, placed
on shelves of an atlas and divided into tiles of 32 by 32 pixels. Coordinates are `u32`s,
kept as natural numbers with the saturation written out. A tile keeps its coordinates
unpacked: `TileCommandTile::new` refuses what does not fit into the halves of its words.
-/

namespace Talos.Tiles

open Rust

/-! ## Rectangles -/

structure DirtyRect where
  left : ℕ
  top : ℕ
  right : ℕ
  bottom : ℕ
deriving DecidableEq

def u32Add (a b : ℕ) : ℕ := min (a + b) (2 ^ 32 - 1)

def u32Mul (a b : ℕ) : ℕ := min (a * b) (2 ^ 32 - 1)

namespace DirtyRect

variable (a b : DirtyRect)

def area : ℕ := (a.right - a.left) * (a.bottom - a.top)

def union : DirtyRect where
  left := min a.left b.left
  top := min a.top b.top
  right := max a.right b.right
  bottom := max a.bottom b.bottom

def touchOrOverlap : Bool :=
  a.left ≤ b.right && b.left ≤ a.right && a.top ≤ b.bottom && b.top ≤ a.bottom

def shouldMerge : Bool :=
  touchOrOverlap a b &&
    saturatingMul (union a b).area 4 ≤ saturatingMul (saturatingAdd a.area b.area) 5

def key : List ℕ := [a.top, a.left, a.bottom, a.right]

end DirtyRect

/-! ## Merging -/

variable (rects : List DirtyRect)

def sortRects : List DirtyRect :=
  rects.mergeSort fun a b => decide (a.key ≤ b.key)

/-- `list.swap_remove(index)`, without the removed element. -/
def swapRemove {α : Type} (list : List α) (index : ℕ) : List α :=
  match list.getLast? with
  | none => list
  | some last => (list.set index last).dropLast

/-- A rectangle is merged with those before it as long as one fits; every merge makes the
list shorter, so its length is enough fuel. -/
def absorb : ℕ → List DirtyRect → DirtyRect → List DirtyRect
  | 0, merged, pending => merged ++ [pending]
  | fuel + 1, merged, pending =>
    match merged.findIdx? (·.shouldMerge pending) with
    | none => merged ++ [pending]
    | some index =>
      absorb fuel (swapRemove merged index)
        ((merged.getD index pending).union pending)

def coalesceDirtyRects : List DirtyRect :=
  sortRects ((sortRects rects).foldl (fun merged rect => absorb merged.length merged rect) [])

/-! ## Cutting -/

/-- The loop from `start` to `stop` in steps of the limit. -/
def cuts (limit stop : ℕ) : ℕ → ℕ → List (ℕ × ℕ)
  | 0, _ => []
  | fuel + 1, start =>
    if start < stop then
      (start, min (u32Add start limit) stop) ::
        cuts limit stop fuel (min (u32Add start limit) stop)
    else []

def splitRectsToTextureLimit (textureSizeLimit : ℕ) : List DirtyRect :=
  let limit := max textureSizeLimit 1
  rects.flatMap fun rect =>
    (cuts limit rect.bottom rect.bottom rect.top).flatMap fun (top, bottom) =>
      (cuts limit rect.right rect.right rect.left).map fun (left, right) =>
        { left, top, right, bottom }

/-! ## Shelves -/

def tileSide : ℕ := 32

/-- `a.div_ceil(TILE_SIZE)`. -/
def tilesOf (a : ℕ) : ℕ := (a + 31) / 32

def alignToTile (value : ℕ) : ℕ := u32Mul (tilesOf value) tileSide

structure PackedRect where
  source : DirtyRect
  atlasX : ℕ
  atlasY : ℕ

structure PackedAtlas where
  width : ℕ
  height : ℕ
  rects : List PackedRect

def checkedSum (widths : List ℕ) : Option ℕ :=
  widths.foldlM (fun sum width => if sum + width < 2 ^ 32 then some (sum + width) else none) 0

/-- The loop over the rectangles: the place of the next one, and the height of its row. -/
def shelve (atlasWidth : ℕ) : ℕ → ℕ → ℕ → List DirtyRect → List PackedRect × ℕ
  | _, currentY, rowHeight, [] => ([], max (u32Add currentY rowHeight) 1)
  | currentX, currentY, rowHeight, rect :: rects =>
    let packedWidth := alignToTile (rect.right - rect.left)
    let packedHeight := alignToTile (rect.bottom - rect.top)
    let wraps := currentX > 0 ∧ u32Add currentX packedWidth > atlasWidth
    let x := if wraps then 0 else currentX
    let y := if wraps then u32Add currentY rowHeight else currentY
    let row := if wraps then 0 else rowHeight
    let rest := shelve atlasWidth (u32Add x packedWidth) y (max row packedHeight) rects
    (⟨rect, x, y⟩ :: rest.1, rest.2)

def packShelf (textureSizeLimit : ℕ) : Except String PackedAtlas :=
  match checkedSum (rects.map fun rect => alignToTile (rect.right - rect.left)) with
  | none => .error "atlas width overflow"
  | some sum =>
    let width := max (min sum textureSizeLimit) 1
    let packed := shelve width 0 0 0 rects
    .ok ⟨width, packed.2, packed.1⟩

/-! ## Tiles -/

structure TileCommandTile where
  atlasX : ℕ
  atlasY : ℕ
  desktopX : ℕ
  desktopY : ℕ
  width : ℕ
  height : ℕ
deriving DecidableEq

def TileCommandTile.new (atlasX atlasY desktopX desktopY width height : ℕ) :
    Except String TileCommandTile :=
  if ∀ n ∈ [atlasX, atlasY, desktopX, desktopY, width, height], n ≤ 65535 then
    if 0 < width ∧ 0 < height then .ok ⟨atlasX, atlasY, desktopX, desktopY, width, height⟩
    else .error "tile command descriptor is empty"
  else .error "tile command descriptor exceeds 16-bit field range"

def PackedRect.tile (rect : PackedRect) (column row : ℕ) : TileCommandTile where
  atlasX := rect.atlasX + column * tileSide
  atlasY := rect.atlasY + row * tileSide
  desktopX := rect.source.left + column * tileSide
  desktopY := rect.source.top + row * tileSide
  width := min tileSide (rect.source.right - rect.source.left - column * tileSide)
  height := min tileSide (rect.source.bottom - rect.source.top - row * tileSide)

def PackedRect.tiles (rect : PackedRect) : List TileCommandTile :=
  (List.range (tilesOf (rect.source.bottom - rect.source.top))).flatMap fun row =>
    (List.range (tilesOf (rect.source.right - rect.source.left))).map fun column =>
      rect.tile column row

def buildTileCommandDescriptors (rects : List PackedRect) : Except String (List TileCommandTile) :=
  (rects.flatMap PackedRect.tiles).mapM fun tile =>
    TileCommandTile.new tile.atlasX tile.atlasY tile.desktopX tile.desktopY tile.width tile.height

/-- The viewer's bound on the descriptor count of a stream. -/
def descriptorCountAccepted (atlasWidth atlasHeight count : ℕ) : Bool :=
  count ≤ u32Mul (max (tilesOf atlasWidth) 1) (max (tilesOf atlasHeight) 1)

/-! ## Merging and cutting keep the pixels -/

namespace DirtyRect

def Covers (rect : DirtyRect) (x y : ℕ) : Prop :=
  rect.left ≤ x ∧ x < rect.right ∧ rect.top ≤ y ∧ y < rect.bottom

structure Inside (width height : ℕ) (rect : DirtyRect) : Prop where
  wide : rect.left < rect.right
  tall : rect.top < rect.bottom
  right_le : rect.right ≤ width
  bottom_le : rect.bottom ≤ height

/-- A non-empty rectangle no larger than a texture. -/
structure Fits (limit : ℕ) (rect : DirtyRect) : Prop where
  wide : rect.left < rect.right
  tall : rect.top < rect.bottom
  width_le : rect.right - rect.left ≤ limit
  height_le : rect.bottom - rect.top ≤ limit

variable {a b : DirtyRect} {width height x y : ℕ}

theorem Inside.union (ha : Inside width height a) (hb : Inside width height b) :
    Inside width height (a.union b) := by
  obtain ⟨_, _, _, _⟩ := ha
  obtain ⟨_, _, _, _⟩ := hb
  constructor <;> simp only [DirtyRect.union] <;> omega

theorem Covers.union_left (h : a.Covers x y) : (a.union b).Covers x y := by
  simp only [Covers, DirtyRect.union] at *
  omega

theorem Covers.union_right (h : b.Covers x y) : (a.union b).Covers x y := by
  simp only [Covers, DirtyRect.union] at *
  omega

end DirtyRect

open DirtyRect

theorem swapRemove_perm {α : Type} {list : List α} {index : ℕ} (d : α)
    (hindex : index < list.length) : (list.getD index d :: swapRemove list index).Perm list := by
  rw [List.getD_eq_getElem _ _ hindex]
  rcases list.eq_nil_or_concat' with rfl | ⟨init, last, rfl⟩
  · simp at hindex
  · have hlast : (last :: init).Perm (init ++ [last]) := (List.perm_append_singleton ..).symm
    simp only [swapRemove, List.getLast?_append, List.getLast?_singleton, Option.some_or]
    by_cases hlt : index < init.length
    · rw [List.set_append_left _ _ hlt, List.dropLast_concat, List.getElem_append_left hlt]
      exact ((List.set_perm_cons_eraseIdx hlt last).cons _).trans <| (List.Perm.swap ..).trans <|
        ((List.getElem_cons_eraseIdx_perm hlt).cons last).trans hlast
    · obtain rfl : index = init.length := by simp at hindex; omega
      simpa using hlast

section Coalesce

variable {width height x y : ℕ}

theorem forall_absorb {P : DirtyRect → Prop} (hunion : ∀ a b, P a → P b → P (a.union b)) (fuel : ℕ)
    {merged : List DirtyRect} {pending : DirtyRect} (hmerged : ∀ rect ∈ merged, P rect)
    (hpending : P pending) : ∀ rect ∈ absorb fuel merged pending, P rect := by
  induction fuel generalizing merged pending with
  | zero => simpa [absorb, or_imp, forall_and] using ⟨hmerged, hpending⟩
  | succ fuel ih =>
    rw [absorb]
    split
    · simpa [or_imp, forall_and] using ⟨hmerged, hpending⟩
    · next index hindex =>
        have hlt := (List.findIdx?_eq_some_iff_getElem.1 hindex).1
        have hmem := fun rect h => hmerged rect ((swapRemove_perm pending hlt).mem_iff.1 h)
        exact ih (fun rect h => hmem rect (List.mem_cons_of_mem _ h))
          (hunion _ _ (hmem _ List.mem_cons_self) hpending)

theorem covers_absorb (fuel : ℕ) {merged : List DirtyRect} {pending : DirtyRect}
    (h : ∃ rect ∈ pending :: merged, rect.Covers x y) :
    ∃ rect ∈ absorb fuel merged pending, rect.Covers x y := by
  induction fuel generalizing merged pending with
  | zero => simpa [absorb, or_comm] using h
  | succ fuel ih =>
    rw [absorb]
    split
    · simpa [or_comm] using h
    · next index hindex =>
        have hlt := (List.findIdx?_eq_some_iff_getElem.1 hindex).1
        apply ih
        obtain ⟨rect, hmem, hcovers⟩ := h
        rcases List.mem_cons.1 hmem with rfl | hmem
        · exact ⟨_, List.mem_cons_self, hcovers.union_right⟩
        · rcases List.mem_cons.1 ((swapRemove_perm pending hlt).mem_iff.2 hmem) with rfl | hmem
          · exact ⟨_, List.mem_cons_self, hcovers.union_left⟩
          · exact ⟨rect, List.mem_cons_of_mem _ hmem, hcovers⟩

@[simp] theorem mem_sortRects {rects : List DirtyRect} {rect : DirtyRect} :
    rect ∈ sortRects rects ↔ rect ∈ rects :=
  List.mem_mergeSort

theorem forall_coalesce {P : DirtyRect → Prop} (hunion : ∀ a b, P a → P b → P (a.union b))
    {rects : List DirtyRect} (h : ∀ rect ∈ rects, P rect) :
    ∀ rect ∈ coalesceDirtyRects rects, P rect := by
  simp only [coalesceDirtyRects, mem_sortRects]
  refine List.foldlRecOn (motive := fun merged => ∀ rect ∈ merged, P rect)
    _ _ (by intro _ h; cases h) fun merged hmerged rect hrect => ?_
  exact forall_absorb hunion _ hmerged (h rect (mem_sortRects.1 hrect))

theorem covers_coalesce {rects : List DirtyRect} (h : ∃ rect ∈ rects, rect.Covers x y) :
    ∃ rect ∈ coalesceDirtyRects rects, rect.Covers x y := by
  simp only [coalesceDirtyRects, mem_sortRects]
  have hfold : ∀ (rects merged : List DirtyRect), (∃ rect ∈ rects ++ merged, rect.Covers x y) →
      ∃ rect ∈ rects.foldl (fun merged rect => absorb merged.length merged rect) merged,
        rect.Covers x y := by
    intro rects
    induction rects with
    | nil => simp
    | cons first rects ih =>
      rintro merged ⟨rect, hmem, hcovers⟩
      apply ih
      simp only [List.cons_append, List.mem_cons, List.mem_append] at hmem
      rcases hmem with rfl | hmem | hmem
      · obtain ⟨rect, hmem, hcovers⟩ := covers_absorb merged.length ⟨_, List.mem_cons_self, hcovers⟩
        exact ⟨rect, List.mem_append_right _ hmem, hcovers⟩
      · exact ⟨rect, List.mem_append_left _ hmem, hcovers⟩
      · obtain ⟨rect, hmem, hcovers⟩ :=
          covers_absorb merged.length ⟨rect, List.mem_cons_of_mem first hmem, hcovers⟩
        exact ⟨rect, List.mem_append_right _ hmem, hcovers⟩
  exact hfold _ [] (by simpa using h)

end Coalesce

section Cuts

variable {limit stop : ℕ} (hlimit : 0 < limit) (hstop : stop < 2 ^ 32)
include hlimit hstop

theorem mem_cuts {fuel start : ℕ} {cut : ℕ × ℕ} (h : cut ∈ cuts limit stop fuel start) :
    start ≤ cut.1 ∧ cut.1 < cut.2 ∧ cut.2 ≤ stop ∧ cut.2 - cut.1 ≤ limit := by
  induction fuel generalizing start with
  | zero => simp [cuts] at h
  | succ fuel ih =>
    rw [cuts] at h
    split at h
    · rcases List.mem_cons.1 h with rfl | h
      · simp only [u32Add]
        omega
      · have := ih h
        simp only [u32Add] at this
        omega
    · simp at h

theorem cut_covers (fuel start : ℕ) {x : ℕ} (hfuel : stop - start ≤ fuel)
    (hx : start ≤ x ∧ x < stop) : ∃ cut ∈ cuts limit stop fuel start, cut.1 ≤ x ∧ x < cut.2 := by
  induction fuel generalizing start with
  | zero => omega
  | succ fuel ih =>
    rw [cuts, if_pos (by omega)]
    by_cases hcut : x < min (u32Add start limit) stop
    · exact ⟨_, List.mem_cons_self, hx.1, hcut⟩
    · obtain ⟨cut, hmem, h⟩ := ih (min (u32Add start limit) stop)
        (by simp only [u32Add]; omega) ⟨by omega, hx.2⟩
      exact ⟨cut, List.mem_cons_of_mem _ hmem, h⟩

end Cuts

section Split

variable {width height limit : ℕ} {rects : List DirtyRect}

theorem mem_split {rect : DirtyRect} : rect ∈ splitRectsToTextureLimit rects limit ↔
    ∃ source ∈ rects,
      (rect.top, rect.bottom) ∈ cuts (max limit 1) source.bottom source.bottom source.top ∧
      (rect.left, rect.right) ∈ cuts (max limit 1) source.right source.right source.left := by
  simp only [splitRectsToTextureLimit, List.mem_flatMap, List.mem_map, Prod.exists]
  constructor
  · rintro ⟨source, hmem, top, bottom, hrow, left, right, hcolumn, rfl⟩
    exact ⟨source, hmem, hrow, hcolumn⟩
  · rintro ⟨source, hmem, hrow, hcolumn⟩
    exact ⟨source, hmem, _, _, hrow, _, _, hcolumn, rfl⟩

variable (hwidth : width < 2 ^ 32) (hheight : height < 2 ^ 32) (hlimit : 0 < limit)
  (hrects : ∀ rect ∈ rects, Inside width height rect)
include hwidth hheight hrects

include hlimit in
theorem fits_split {rect : DirtyRect} (h : rect ∈ splitRectsToTextureLimit rects limit) :
    rect.Fits limit ∧ rect.right ≤ width ∧ rect.bottom ≤ height := by
  obtain ⟨source, hmem, hrow, hcolumn⟩ := mem_split.1 h
  obtain ⟨_, _, hright, hbottom⟩ := hrects source hmem
  have hrow := mem_cuts (by omega) (by omega) hrow
  have hcolumn := mem_cuts (by omega) (by omega) hcolumn
  exact ⟨⟨by omega, by omega, by omega, by omega⟩, by omega, by omega⟩

theorem covers_split {x y : ℕ} (h : ∃ rect ∈ rects, rect.Covers x y) :
    ∃ rect ∈ splitRectsToTextureLimit rects limit, rect.Covers x y := by
  obtain ⟨source, hmem, hleft, hright, htop, hbottom⟩ := h
  obtain ⟨_, _, _, _⟩ := hrects source hmem
  have hlimit : 0 < max limit 1 := by omega
  obtain ⟨⟨left, right⟩, hcolumn, hx⟩ := cut_covers hlimit (show source.right < 2 ^ 32 by omega)
    source.right source.left (by omega) ⟨hleft, hright⟩
  obtain ⟨⟨top, bottom⟩, hrow, hy⟩ := cut_covers hlimit (show source.bottom < 2 ^ 32 by omega)
    source.bottom source.top (by omega) ⟨htop, hbottom⟩
  exact ⟨⟨left, top, right, bottom⟩, mem_split.2 ⟨source, hmem, hrow, hcolumn⟩, hx.1, hx.2, hy⟩

end Split

/-! ## Shelves keep the rectangles apart -/

section Shelf

variable {limit atlasWidth : ℕ}

/-- The cells a packed rectangle takes lie inside the atlas. -/
structure PackedRect.Within (width height : ℕ) (rect : PackedRect) : Prop where
  column : 32 ∣ rect.atlasX
  row : 32 ∣ rect.atlasY
  right_le : rect.atlasX + 32 * tilesOf (rect.source.right - rect.source.left) ≤ width
  bottom_le : rect.atlasY + 32 * tilesOf (rect.source.bottom - rect.source.top) ≤ height

/-- A rectangle placed later is on a lower shelf or further to the right. -/
def PackedRect.Before (a b : PackedRect) : Prop :=
  a.atlasY + 32 * tilesOf (a.source.bottom - a.source.top) ≤ b.atlasY ∨
    a.atlasX + 32 * tilesOf (a.source.right - a.source.left) ≤ b.atlasX

theorem alignToTile_eq {value : ℕ} (hlimit : limit < 2 ^ 32) (hdvd : 32 ∣ limit)
    (h : value ≤ limit) : alignToTile value = 32 * tilesOf value ∧ 32 * tilesOf value ≤ limit := by
  simp only [alignToTile, u32Mul, tilesOf, tileSide]
  omega

/-- Where a rectangle is placed: at the start of a new shelf, or next to the one before. -/
theorem shelve_cons (x y row : ℕ) (rect : DirtyRect) (rects : List DirtyRect) :
    ∃ x' y' row', shelve atlasWidth x y row (rect :: rects) =
        (⟨rect, x', y'⟩ :: (shelve atlasWidth (u32Add x' (alignToTile (rect.right - rect.left))) y'
            (max row' (alignToTile (rect.bottom - rect.top))) rects).1,
          (shelve atlasWidth (u32Add x' (alignToTile (rect.right - rect.left))) y'
            (max row' (alignToTile (rect.bottom - rect.top))) rects).2) ∧
      (x' = 0 ∧ y' = u32Add y row ∧ row' = 0 ∨
        (x = 0 ∨ u32Add x (alignToTile (rect.right - rect.left)) ≤ atlasWidth) ∧
          x' = x ∧ y' = y ∧ row' = row) := by
  by_cases h : x > 0 ∧ u32Add x (alignToTile (rect.right - rect.left)) > atlasWidth
  · exact ⟨0, u32Add y row, 0, by simp only [shelve, if_pos h], .inl ⟨rfl, rfl, rfl⟩⟩
  · exact ⟨x, y, row, by simp only [shelve, if_neg h], .inr ⟨by omega, rfl, rfl, rfl⟩⟩

theorem le_shelve_height {x y row : ℕ} (rects : List DirtyRect) :
    u32Add y row ≤ (shelve atlasWidth x y row rects).2 := by
  induction rects generalizing x y row with
  | nil => exact Nat.le_max_left _ _
  | cons rect rects ih =>
    obtain ⟨x', y', row', heq, hplace⟩ := @shelve_cons atlasWidth x y row rect rects
    rw [heq]
    refine le_trans ?_ ih
    simp only [u32Add] at hplace ⊢
    omega

theorem map_source_shelve {x y row : ℕ} (rects : List DirtyRect) :
    (shelve atlasWidth x y row rects).1.map PackedRect.source = rects := by
  induction rects generalizing x y row with
  | nil => rfl
  | cons rect rects ih => simp [shelve, ih]

theorem shelve_spec (hlimit : limit < 2 ^ 32) (hdvd : 32 ∣ limit) (hwidth : atlasWidth ≤ limit)
    {x y row : ℕ} (hx : 32 ∣ x) (hy : 32 ∣ y) (hrow : 32 ∣ row) {rects : List DirtyRect}
    (hrects : ∀ rect ∈ rects, rect.Fits limit ∧ 32 * tilesOf (rect.right - rect.left) ≤ atlasWidth)
    (hheight : (shelve atlasWidth x y row rects).2 ≤ limit) :
    (∀ rect ∈ (shelve atlasWidth x y row rects).1,
      rect.Within atlasWidth (shelve atlasWidth x y row rects).2 ∧
        (y + row ≤ rect.atlasY ∨ y ≤ rect.atlasY ∧ x ≤ rect.atlasX)) ∧
    (shelve atlasWidth x y row rects).1.Pairwise PackedRect.Before := by
  induction rects generalizing x y row with
  | nil => simp [shelve]
  | cons rect rects ih =>
    obtain ⟨⟨hfits, hcolumns⟩, hrects⟩ := List.forall_mem_cons.1 hrects
    obtain ⟨hpw, _⟩ := alignToTile_eq hlimit hdvd hfits.width_le
    obtain ⟨hph, _⟩ := alignToTile_eq hlimit hdvd hfits.height_le
    have hsum := le_trans (le_shelve_height (rect :: rects)) hheight
    obtain ⟨x', y', row', heq, hplace⟩ := @shelve_cons atlasWidth x y row rect rects
    rw [hpw] at hplace
    have hright : x' + 32 * tilesOf (rect.right - rect.left) ≤ atlasWidth := by
      simp only [u32Add] at hplace
      omega
    have hadd : u32Add x' (32 * tilesOf (rect.right - rect.left)) =
        x' + 32 * tilesOf (rect.right - rect.left) := by
      simp only [u32Add]
      omega
    rw [heq, hpw, hph, hadd] at hheight ⊢
    have hbottom := @le_shelve_height atlasWidth (x' + 32 * tilesOf (rect.right - rect.left)) y'
      (max row' (32 * tilesOf (rect.bottom - rect.top))) rects
    simp only [u32Add] at hplace hsum hbottom
    obtain ⟨hall, hpairs⟩ := @ih (x' + 32 * tilesOf (rect.right - rect.left)) y'
      (max row' (32 * tilesOf (rect.bottom - rect.top))) (by omega) (by omega) (by omega)
      hrects hheight
    refine ⟨List.forall_mem_cons.2 ⟨⟨⟨?_, ?_, hright, ?_⟩, ?_⟩,
      fun later hlater => ⟨(hall later hlater).1, ?_⟩⟩,
      List.pairwise_cons.2 ⟨fun later hlater => ?_, hpairs⟩⟩
    · dsimp only
      omega
    · dsimp only
      omega
    · dsimp only
      omega
    · dsimp only
      omega
    · have := (hall later hlater).2
      omega
    · have := (hall later hlater).2
      simp only [PackedRect.Before]
      omega

end Shelf

theorem le_of_checkedSum {widths : List ℕ} {sum : ℕ} (h : checkedSum widths = some sum) :
    ∀ width ∈ widths, width ≤ sum := by
  have hfold : ∀ (widths : List ℕ) (start : ℕ), widths.foldlM (fun sum width =>
      if sum + width < 2 ^ 32 then some (sum + width) else none) start = some sum →
      start ≤ sum ∧ ∀ width ∈ widths, width ≤ sum := by
    intro widths
    induction widths with
    | nil => simp
    | cons width widths ih =>
      intro start h
      rw [List.foldlM_cons] at h
      split at h
      · obtain ⟨hstart, hall⟩ := ih _ h
        exact ⟨by omega, List.forall_mem_cons.2 ⟨by omega, hall⟩⟩
      · cases h
  exact (hfold widths 0 h).2

/-! ## Tiles -/

variable {rect : PackedRect}

theorem mem_tiles {tile : TileCommandTile} : tile ∈ rect.tiles ↔
    ∃ row < tilesOf (rect.source.bottom - rect.source.top),
      ∃ column < tilesOf (rect.source.right - rect.source.left), rect.tile column row = tile := by
  simp [PackedRect.tiles]

theorem of_buildTileCommandDescriptors {rects : List PackedRect} {tiles : List TileCommandTile}
    (h : buildTileCommandDescriptors rects = .ok tiles) :
    tiles = rects.flatMap PackedRect.tiles ∧
      ∀ tile ∈ tiles, tile.atlasX < 2 ^ 16 ∧ tile.atlasY < 2 ^ 16 := by
  rw [buildTileCommandDescriptors] at h
  generalize rects.flatMap PackedRect.tiles = list at h
  induction list generalizing tiles with
  | nil => cases h; simp
  | cons tile list ih =>
    rw [List.mapM_cons, TileCommandTile.new] at h
    split_ifs at h with hfields
    · cases hrest : list.mapM fun tile => TileCommandTile.new tile.atlasX tile.atlasY
          tile.desktopX tile.desktopY tile.width tile.height with
      | error => rw [hrest] at h; cases h
      | ok rest =>
        rw [hrest] at h
        cases h
        obtain ⟨rfl, hall⟩ := ih hrest
        simp only [List.forall_mem_cons] at hfields
        exact ⟨rfl, List.forall_mem_cons.2 ⟨⟨by dsimp only; omega, by dsimp only; omega⟩, hall⟩⟩
    all_goals cases h

namespace TileCommandTile

variable (tile : TileCommandTile)

def desktopRect : DirtyRect :=
  ⟨tile.desktopX, tile.desktopY, tile.desktopX + tile.width, tile.desktopY + tile.height⟩

def atlasRect : DirtyRect :=
  ⟨tile.atlasX, tile.atlasY, tile.atlasX + tile.width, tile.atlasY + tile.height⟩

/-- The column and the row of a tile in the grid of the atlas. -/
def cell : ℕ × ℕ := (tile.atlasX / 32, tile.atlasY / 32)

end TileCommandTile

section Tile

variable {width height : ℕ} {rects : List PackedRect}

theorem cells_pairwise (hwithin : ∀ rect ∈ rects, rect.Within width height)
    (hbefore : rects.Pairwise PackedRect.Before) :
    (rects.flatMap PackedRect.tiles).Pairwise fun a b => a.cell ≠ b.cell := by
  refine List.pairwise_flatMap.2 ⟨fun rect hmem => ?_, hbefore.imp_of_mem ?_⟩
  · -- the tiles of one rectangle differ in their column or in their row
    have hrect := hwithin rect hmem
    refine List.pairwise_flatMap.2 ⟨fun row _ => List.pairwise_map.2 ?_, ?_⟩
    · refine List.pairwise_lt_range.imp fun h heq => ?_
      have := congrArg Prod.fst heq
      simp only [TileCommandTile.cell, PackedRect.tile, tileSide] at this
      omega
    · refine List.pairwise_lt_range.imp fun h => ?_
      simp only [List.mem_map]
      rintro _ ⟨_, _, rfl⟩ _ ⟨_, _, rfl⟩ heq
      have := congrArg Prod.snd heq
      simp only [TileCommandTile.cell, PackedRect.tile, tileSide] at this
      omega
  · intro a b ha hb hab tile htile other hother heq
    obtain ⟨row, hrow, column, hcolumn, rfl⟩ := mem_tiles.1 htile
    obtain ⟨row', hrow', column', hcolumn', rfl⟩ := mem_tiles.1 hother
    obtain ⟨_, _, _, _⟩ := hwithin a ha
    obtain ⟨_, _, _, _⟩ := hwithin b hb
    simp only [TileCommandTile.cell, PackedRect.tile, tileSide, Prod.mk.injEq] at heq
    simp only [PackedRect.Before] at hab
    omega

theorem length_le_of_cells {tiles : List TileCommandTile}
    (hcells : tiles.Pairwise fun a b => a.cell ≠ b.cell)
    (hinside : ∀ tile ∈ tiles, tile.atlasX < width ∧ tile.atlasY < height) :
    tiles.length ≤ tilesOf width * tilesOf height := by
  have hnodup : (tiles.map TileCommandTile.cell).Nodup := List.pairwise_map.2 hcells
  calc tiles.length = (tiles.map TileCommandTile.cell).toFinset.card := by
        rw [List.toFinset_card_of_nodup hnodup, List.length_map]
    _ ≤ (Finset.range (tilesOf width) ×ˢ Finset.range (tilesOf height)).card := by
        refine Finset.card_le_card fun cell hcell => ?_
        obtain ⟨tile, hmem, rfl⟩ := List.mem_map.1 (List.mem_toFinset.1 hcell)
        have := hinside tile hmem
        simp only [TileCommandTile.cell, Finset.mem_product, Finset.mem_range, tilesOf]
        omega
    _ = tilesOf width * tilesOf height := by simp

theorem tile_bounds {limit : ℕ} (hfits : rect.source.Fits limit)
    (hwithin : rect.Within width height) {tile : TileCommandTile} (h : tile ∈ rect.tiles) :
    tile.atlasRect.Inside width height ∧
      tile.desktopRect.Inside rect.source.right rect.source.bottom ∧
      tile.width ≤ 32 ∧ tile.height ≤ 32 ∧ 32 ∣ tile.atlasX ∧ 32 ∣ tile.atlasY := by
  obtain ⟨row, hrow, column, hcolumn, rfl⟩ := mem_tiles.1 h
  obtain ⟨_, _, _, _⟩ := hwithin
  obtain ⟨_, _, _, _⟩ := hfits
  simp only [tilesOf] at *
  refine ⟨?_, ?_, ?_, ?_, ?_, ?_⟩
  · constructor <;> simp only [TileCommandTile.atlasRect, PackedRect.tile, tileSide] <;> omega
  · constructor <;> simp only [TileCommandTile.desktopRect, PackedRect.tile, tileSide] <;> omega
  all_goals simp only [PackedRect.tile, tileSide]; omega

theorem tile_covers {x y : ℕ} (h : rect.source.Covers x y) :
    ∃ tile ∈ rect.tiles, tile.desktopRect.Covers x y := by
  obtain ⟨_, _, _, _⟩ := h
  refine ⟨_, mem_tiles.2 ⟨(y - rect.source.top) / 32, ?_, (x - rect.source.left) / 32, ?_, rfl⟩, ?_⟩
  · simp only [tilesOf]
    omega
  · simp only [tilesOf]
    omega
  · simp only [Covers, TileCommandTile.desktopRect, PackedRect.tile, tileSide]
    omega

end Tile

/-- Packing covers every dirty pixel with tiles that lie in the frame and in the atlas, share
no pixel of the atlas, and are few enough for the viewer. -/
theorem atlas_packing_covers {frameWidth frameHeight limit : ℕ} {rects : List DirtyRect}
    {packed : PackedAtlas} {tiles : List TileCommandTile}
    (hwidth : frameWidth < 2 ^ 32) (hheight : frameHeight < 2 ^ 32)
    (hlimit : limit < 2 ^ 32) (hpos : 0 < limit) (hdvd : 32 ∣ limit)
    (hrects : ∀ rect ∈ rects, rect.Inside frameWidth frameHeight)
    (hpack : packShelf (splitRectsToTextureLimit (coalesceDirtyRects rects) limit) limit =
      .ok packed)
    (htiles : buildTileCommandDescriptors packed.rects = .ok tiles)
    (hpacked : packed.height ≤ limit) :
    (∀ rect ∈ rects, ∀ x y, rect.Covers x y → ∃ tile ∈ tiles, tile.desktopRect.Covers x y) ∧
      (∀ tile ∈ tiles, tile.desktopRect.Inside frameWidth frameHeight ∧
        tile.atlasRect.Inside packed.width packed.height ∧ tile.width ≤ 32 ∧ tile.height ≤ 32) ∧
      (tiles.Pairwise fun a b => ∀ x y, ¬ (a.atlasRect.Covers x y ∧ b.atlasRect.Covers x y)) ∧
      tiles.length ≤ tilesOf packed.width * tilesOf packed.height ∧
      descriptorCountAccepted packed.width packed.height tiles.length := by
  have hinside := forall_coalesce (fun _ _ => Inside.union) hrects
  have hcut := fun rect h => @fits_split _ _ _ _ hwidth hheight hpos hinside rect h
  have hcovers := fun x y h => @covers_split _ _ limit _ hwidth hheight hinside x y h
  generalize splitRectsToTextureLimit (coalesceDirtyRects rects) limit = cut at *
  obtain ⟨rfl, hfields⟩ := of_buildTileCommandDescriptors htiles
  simp only [packShelf] at hpack
  split at hpack
  · cases hpack
  next sum hsum =>
  cases hpack
  dsimp only at *
  have hfit : ∀ rect ∈ cut, 32 * tilesOf (rect.right - rect.left) ≤ max (min sum limit) 1 := by
    intro rect hmem
    obtain ⟨heq, hle⟩ := alignToTile_eq hlimit hdvd (hcut rect hmem).1.width_le
    have := le_of_checkedSum hsum _ (List.mem_map_of_mem hmem)
    omega
  obtain ⟨hall, hbefore⟩ := shelve_spec hlimit hdvd (by omega) (Nat.dvd_zero _)
    (Nat.dvd_zero _) (Nat.dvd_zero _)
    (fun rect hmem => ⟨(hcut rect hmem).1, hfit rect hmem⟩) hpacked
  have hsource := @map_source_shelve (max (min sum limit) 1) 0 0 0 cut
  generalize shelve (max (min sum limit) 1) 0 0 0 cut = shelves at *
  have hmem : ∀ rect ∈ shelves.1, rect.source ∈ cut := fun rect h =>
    hsource ▸ List.mem_map_of_mem h
  have htile : ∀ tile ∈ shelves.1.flatMap PackedRect.tiles, ∃ rect ∈ shelves.1,
      tile.atlasRect.Inside (max (min sum limit) 1) shelves.2 ∧
        tile.desktopRect.Inside rect.source.right rect.source.bottom ∧
        tile.width ≤ 32 ∧ tile.height ≤ 32 ∧ 32 ∣ tile.atlasX ∧ 32 ∣ tile.atlasY := by
    intro tile h
    obtain ⟨rect, hrect, h⟩ := List.mem_flatMap.1 h
    exact ⟨rect, hrect, tile_bounds (hcut _ (hmem rect hrect)).1 (hall rect hrect).1 h⟩
  have hcells := cells_pairwise (fun rect h => (hall rect h).1) hbefore
  have hcount := @length_le_of_cells (max (min sum limit) 1) shelves.2 _ hcells fun tile h => by
    obtain ⟨_, _, ⟨_, _, _, _⟩, _⟩ := htile tile h
    simp only [TileCommandTile.atlasRect] at *
    omega
  refine ⟨fun rect hrect x y hxy => ?_, fun tile h => ?_, hcells.imp_of_mem ?_, hcount, ?_⟩
  · obtain ⟨piece, hpiece, hxy⟩ := hcovers x y (covers_coalesce ⟨rect, hrect, hxy⟩)
    rw [← hsource] at hpiece
    obtain ⟨place, hplace, rfl⟩ := List.mem_map.1 hpiece
    obtain ⟨tile, h, hxy⟩ := tile_covers hxy
    exact ⟨tile, List.mem_flatMap.2 ⟨place, hplace, h⟩, hxy⟩
  · obtain ⟨rect, hrect, hatlas, ⟨hwide, htall, hright, hbottom⟩, hw, hh, _⟩ := htile tile h
    obtain ⟨_, hr, hb⟩ := hcut _ (hmem rect hrect)
    exact ⟨⟨hwide, htall, hright.trans hr, hbottom.trans hb⟩, hatlas, hw, hh⟩
  · intro a b ha hb hne x y
    obtain ⟨_, _, _, _, _, _, _, _⟩ := htile a ha
    obtain ⟨_, _, _, _, _, _, _, _⟩ := htile b hb
    simp only [TileCommandTile.cell, ne_eq, Prod.mk.injEq] at hne
    simp only [Covers, TileCommandTile.atlasRect]
    omega
  · simp only [descriptorCountAccepted, u32Mul]
    have hfew : _ ≤ 2048 * 2048 := length_le_of_cells hcells hfields
    have hmax : tilesOf (max (min sum limit) 1) * tilesOf shelves.2 ≤
        max (tilesOf (max (min sum limit) 1)) 1 * max (tilesOf shelves.2) 1 :=
      Nat.mul_le_mul (Nat.le_max_left _ _) (Nat.le_max_left _ _)
    exact decide_eq_true (Nat.le_min.2 ⟨hcount.trans hmax, by omega⟩)

def wideAtlas : PackedAtlas := ⟨64, 64, [⟨⟨0, 0, 64, 10⟩, 0, 0⟩, ⟨⟨64, 0, 80, 10⟩, 0, 32⟩]⟩

def wideTiles : List TileCommandTile := wideAtlas.rects.flatMap PackedRect.tiles

/-- A rectangle wider than the texture is cut, and its two pieces stand on two shelves. -/
theorem atlas_packing_covers_wide_rect :
    packShelf (splitRectsToTextureLimit (coalesceDirtyRects [⟨0, 0, 80, 10⟩]) 64) 64 =
        .ok wideAtlas ∧
      buildTileCommandDescriptors wideAtlas.rects = .ok wideTiles ∧
      (∀ rect ∈ [⟨0, 0, 80, 10⟩], ∀ x y, DirtyRect.Covers rect x y →
        ∃ tile ∈ wideTiles, tile.desktopRect.Covers x y) ∧
      (∀ tile ∈ wideTiles, tile.desktopRect.Inside 80 10 ∧ tile.atlasRect.Inside 64 64 ∧
        tile.width ≤ 32 ∧ tile.height ≤ 32) ∧
      (wideTiles.Pairwise fun a b =>
        ∀ x y, ¬ (a.atlasRect.Covers x y ∧ b.atlasRect.Covers x y)) ∧
      wideTiles.length ≤ tilesOf 64 * tilesOf 64 ∧ descriptorCountAccepted 64 64 3 := by
  have hpack : packShelf (splitRectsToTextureLimit (coalesceDirtyRects [⟨0, 0, 80, 10⟩]) 64) 64 =
      .ok wideAtlas := by
    rw [show coalesceDirtyRects [⟨0, 0, 80, 10⟩] = [⟨0, 0, 80, 10⟩] by
      simp [coalesceDirtyRects, sortRects, absorb]]
    rfl
  exact ⟨hpack, rfl, atlas_packing_covers (by decide) (by decide) (by decide) (by decide)
    (by decide) (by simp; constructor <;> decide) hpack rfl (by decide)⟩

end Talos.Tiles
