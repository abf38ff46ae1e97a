import Talos.Display.CpuViewport
import Talos.Display.RoundTrip
import Talos.Transition.Run

/-!
# The CPU viewport stays inside its buffers

Every rectangle is checked against the buffer that it is used for, so the start of each
of its rows and pixels is computed without overflow and the copy ends inside the buffer.
The commands of a stream therefore keep the size of the atlas and never panic, and the
records keep the size of the desktop.
-/

namespace Talos.Display.Cpu

open Rust Rust.Routine Transition

/-! ## Rectangles -/

/-- A rectangle that is not empty, inside an area of the given size. -/
structure Fits (x y width height limitWidth limitHeight : UInt32) : Prop where
  width_ne : width ≠ 0
  height_ne : height ≠ 0
  right : x.toNat + width.toNat ≤ limitWidth.toNat
  bottom : y.toNat + height.toNat ≤ limitHeight.toNat

theorem le_of_exceeds_eq_false {start length limit : UInt32}
    (h : exceeds start length limit = false) : start.toNat + length.toNat ≤ limit.toNat := by
  unfold exceeds u32CheckedAdd at h
  split_ifs at h with hlt
  have hle : start + length ≤ limit := by simpa using h
  rwa [UInt32.le_iff_toNat_le, UInt32.toNat_add, Nat.mod_eq_of_lt hlt] at hle

theorem fits_of_validateRect {x y width height limitWidth limitHeight : UInt32}
    (h : validateRect x y width height limitWidth limitHeight = .ok ()) :
    Fits x y width height limitWidth limitHeight := by
  unfold validateRect at h
  split_ifs at h with hempty hexceeds
  rw [not_or] at hempty hexceeds
  exact ⟨hempty.1, hempty.2, le_of_exceeds_eq_false (Bool.eq_false_iff.mpr hexceeds.1),
    le_of_exceeds_eq_false (Bool.eq_false_iff.mpr hexceeds.2)⟩

/-- The size of an area in bytes fits into a `usize`. -/
abbrev Area (width height : UInt32) : Prop := width.toNat * height.toNat * 4 < 2 ^ 64

structure HasArea (width height : UInt32) (buffer : Bytes) : Prop where
  length : buffer.length = width.toNat * height.toNat * 4
  area : Area width height

theorem frameLen_eq_ok {width height : UInt32} {len : ℕ} (h : frameLen width height = .ok len) :
    len = width.toNat * height.toNat * 4 ∧ Area width height := by
  unfold frameLen usizeMul at h
  split at h
  · exact nomatch h
  · rename_i pixels hpixels
    split_ifs at hpixels
    cases hpixels
    split_ifs at h with harea
    exact ⟨(Except.ok.inj h).symm, harea⟩

variable {pixel : ℕ}

section Offsets

variable {x y width height limitWidth limitHeight : UInt32}

theorem line_le (limitWidth limitHeight : UInt32) {n line : ℕ} (hline : line < limitHeight.toNat)
    (hn : n ≤ limitWidth.toNat) :
    line * (limitWidth.toNat * 4) + n * 4 ≤ limitWidth.toNat * limitHeight.toNat * 4 := by
  have hlines : (line + 1) * limitWidth.toNat ≤ limitHeight.toNat * limitWidth.toNat :=
    Nat.mul_le_mul_right _ hline
  calc line * (limitWidth.toNat * 4) + n * 4
      ≤ line * (limitWidth.toNat * 4) + limitWidth.toNat * 4 := by omega
    _ = (line + 1) * limitWidth.toNat * 4 := by ring
    _ ≤ limitWidth.toNat * limitHeight.toNat * 4 := by
        rw [Nat.mul_comm limitWidth.toNat]
        omega

theorem rowStart_some (hfits : Fits x y width height limitWidth limitHeight)
    (harea : Area limitWidth limitHeight) {row : ℕ} (hrow : row < height.toNat) :
    ∃ start, rowStart (limitWidth.toNat * 4) x y row = some start ∧
      start + width.toNat * 4 ≤ limitWidth.toNat * limitHeight.toNat * 4 := by
  have hbottom := hfits.bottom
  have hright := hfits.right
  have hlimit := limitHeight.toNat_lt
  have hx := x.toNat_lt
  have hend := line_le limitWidth limitHeight (by omega : y.toNat + row < limitHeight.toNat) hright
  refine ⟨(y.toNat + row) * (limitWidth.toNat * 4) + x.toNat * 4, ?_, by omega⟩
  rw [rowStart, bind_of_eq_some (usizeAdd_eq (by omega)), bind_of_eq_some (usizeMul_eq (by omega)),
    bind_of_eq_some (usizeMul_eq (by omega)), usizeAdd_eq (by omega)]

variable {buffer bytes : Bytes} {start length : ℕ}

theorem sliceFrom_some (hend : start + length ≤ buffer.length) (hbuffer : buffer.length < 2 ^ 64) :
    ∃ bytes, sliceFrom buffer start length = some bytes ∧ bytes.length = length := by
  refine ⟨(buffer.drop start).take length, ?_, ?_⟩
  · rw [sliceFrom, bind_of_eq_some (usizeAdd_eq (by omega)), slice,
      if_pos ⟨Nat.le_add_right _ _, hend⟩, Nat.add_sub_cancel_left]
  · rw [List.length_take, List.length_drop]
    omega

theorem copyAt_some (hbuffer : HasArea limitWidth limitHeight buffer)
    (hend : start + length ≤ limitWidth.toNat * limitHeight.toNat * 4)
    (hbytes : bytes.length = length) :
    ∃ buffer', copyAt start length bytes buffer = some buffer' ∧
      HasArea limitWidth limitHeight buffer' := by
  obtain ⟨hlength, harea⟩ := hbuffer
  refine ⟨buffer.take start ++ bytes ++ buffer.drop (start + length), ?_, ?_, harea⟩
  · rw [copyAt, bind_of_eq_some (usizeAdd_eq (by omega)), if_pos ⟨by omega, hbytes⟩]
  · simp only [List.length_append, List.length_take, List.length_drop, hbytes]
    omega

theorem copyRows_some {source : Bytes} {sourceX sourceY sourceWidth sourceHeight : UInt32}
    (hsource : Fits sourceX sourceY width height sourceWidth sourceHeight)
    (hread : HasArea sourceWidth sourceHeight source)
    (htarget : Fits x y width height limitWidth limitHeight)
    (hbuffer : HasArea limitWidth limitHeight buffer) :
    ∃ buffer', copyRows source (sourceWidth.toNat * 4) sourceX sourceY (limitWidth.toNat * 4) x y
        width height buffer = some buffer' ∧ HasArea limitWidth limitHeight buffer' := by
  have hwidth := width.toNat_lt
  rw [copyRows, bind_of_eq_some (usizeMul_eq (by omega))]
  refine foldlM_some (fun row hrow buffer hbuffer => ?_) hbuffer
  rw [List.mem_range] at hrow
  obtain ⟨src, hsrc, hsrcEnd⟩ := rowStart_some hsource hread.area hrow
  obtain ⟨dst, hdst, hdstEnd⟩ := rowStart_some htarget hbuffer.area hrow
  obtain ⟨bytes, hbytes, hlength⟩ := sliceFrom_some (hread.length ▸ hsrcEnd)
    (hread.length ▸ hread.area)
  rw [bind_of_eq_some hsrc, bind_of_eq_some hdst, bind_of_eq_some hbytes]
  exact copyAt_some hbuffer hdstEnd hlength

theorem fillRect_some (hfits : Fits x y width height limitWidth limitHeight)
    (hbuffer : HasArea limitWidth limitHeight buffer) {color : Bytes} (hcolor : color.length = 4) :
    ∃ buffer', fillRect (limitWidth.toNat * 4) x y width height color buffer = some buffer' ∧
      HasArea limitWidth limitHeight buffer' := by
  have harea := hbuffer.area
  refine foldlM_some (fun row hrow buffer hbuffer => ?_) hbuffer
  rw [List.mem_range] at hrow
  obtain ⟨dst, hdst, hend⟩ := rowStart_some hfits harea hrow
  rw [bind_of_eq_some hdst]
  refine foldlM_some (fun pixel hpixel buffer hbuffer => ?_) hbuffer
  rw [List.mem_range] at hpixel
  rw [bind_of_eq_some (usizeMul_eq (by omega)), bind_of_eq_some (usizeAdd_eq (by omega))]
  exact copyAt_some hbuffer (by omega) hcolor

theorem pixel_inside (hwidth : width ≠ 0) (hpixel : pixel < width.toNat * height.toNat) :
    pixel / width.toNat < height.toNat ∧ pixel % width.toNat < width.toNat := by
  have hpos : 0 < width.toNat := Nat.pos_of_ne_zero fun hzero => hwidth (UInt32.toNat_inj.mp hzero)
  exact ⟨Nat.div_lt_of_lt_mul hpixel, Nat.mod_lt _ hpos⟩

theorem Fits.pixelEnd (hfits : Fits x y width height limitWidth limitHeight)
    (hpixel : pixel < width.toNat * height.toNat) :
    width.toNat ≠ 0 ∧ y.toNat + pixel / width.toNat < limitHeight.toNat ∧
      x.toNat + pixel % width.toNat < limitWidth.toNat ∧
      (y.toNat + pixel / width.toNat) * (limitWidth.toNat * 4) +
        (x.toNat + pixel % width.toNat + 1) * 4 ≤ limitWidth.toNat * limitHeight.toNat * 4 := by
  obtain ⟨hrow, hcol⟩ := pixel_inside hfits.width_ne hpixel
  have hbottom := hfits.bottom
  have hright := hfits.right
  exact ⟨by omega, by omega, by omega, line_le limitWidth limitHeight (by omega) (by omega)⟩

theorem writePixel_some (hfits : Fits x y width height limitWidth limitHeight)
    (hbuffer : HasArea limitWidth limitHeight buffer)
    (hpixel : pixel < width.toNat * height.toNat) {color : Bytes} (hcolor : color.length = 4) :
    ∃ buffer', writePixel (limitWidth.toNat * 4) x y width pixel color buffer = some buffer' ∧
      HasArea limitWidth limitHeight buffer' := by
  obtain ⟨hne, hrow, hcol, hend⟩ := hfits.pixelEnd hpixel
  have hlimit := limitHeight.toNat_lt
  have hlimitWidth := limitWidth.toNat_lt
  have harea := hbuffer.area
  rw [writePixel, bind_of_eq_some (usizeDiv_eq hne), bind_of_eq_some (usizeRem_eq hne),
    bind_of_eq_some (usizeAdd_eq (by omega)), bind_of_eq_some (usizeMul_eq (by omega)),
    bind_of_eq_some (usizeAdd_eq (by omega)), bind_of_eq_some (usizeMul_eq (by omega)),
    bind_of_eq_some (usizeAdd_eq (by omega))]
  exact copyAt_some hbuffer (by omega) hcolor

end Offsets

/-! ## Colours -/

theorem signExtend_some {value : UInt32} {bits : ℕ} (hbits : 4 ≤ bits ∧ bits ≤ 6)
    (hvalue : value.toNat < 2 ^ bits) :
    ∃ n, signExtend value bits = some n ∧ -64 ≤ n ∧ n < 64 := by
  have hpow : (2 : ℤ) ^ bits ≤ 64 := by
    calc (2 : ℤ) ^ bits ≤ 2 ^ 6 := pow_le_pow_right₀ (by decide) hbits.2
      _ = 64 := rfl
  have hlt : (value.toNat : ℤ) < 2 ^ bits := by exact_mod_cast hvalue
  have hasI32 : asI32 value = value.toNat := asI32_eq (by omega)
  rw [signExtend, bind_of_eq_some (u32Shl_eq (by omega)), hasI32]
  split
  · exact ⟨value.toNat, rfl, by omega, by omega⟩
  · rw [bind_of_eq_some (i32Bit_eq (by omega)), i32_eq (by omega)]
    exact ⟨_, rfl, by omega, by omega⟩

theorem scaled_some {value : UInt32} {bits : ℕ} (hbits : 4 ≤ bits ∧ bits ≤ 6)
    (hvalue : value.toNat < 2 ^ bits) {factor : ℤ} (hfactor : 0 ≤ factor ∧ factor ≤ 32) :
    ∃ n, scaled value bits factor = some n ∧ -2048 ≤ n ∧ n ≤ 2048 := by
  obtain ⟨n, hn, hlow, hhigh⟩ := signExtend_some hbits hvalue
  have hmul : -2048 ≤ n * factor ∧ n * factor ≤ 2048 := by
    constructor <;> nlinarith [hfactor.1, hfactor.2]
  refine ⟨n * factor, ?_, hmul⟩
  rw [scaled, bind_of_eq_some hn, i32_eq (by omega)]

theorem applyMaskedQuantDelta_some (previousPixel packedDelta : UInt32) {quantShift : UInt32}
    (hshift : quantShift.toNat ≤ 4) :
    ∃ color, applyMaskedQuantDelta previousPixel packedDelta quantShift = some color := by
  have hrange : (0 : ℤ) ≤ 2 ^ quantShift.toNat ∧ (2 : ℤ) ^ quantShift.toNat ≤ 32 := by
    refine ⟨by positivity, ?_⟩
    calc (2 : ℤ) ^ quantShift.toNat ≤ 2 ^ 4 := pow_le_pow_right₀ (by decide) hshift
      _ ≤ 32 := by decide
  have hchannel : ∀ value : UInt32, asI32 (value &&& 0xff) = (value &&& 0xff).toNat ∧
      (value &&& 0xff).toNat < 256 := fun value => by
    have hlt : (value &&& 0xff).toNat < 256 := toNat_and_lt (by decide)
    exact ⟨asI32_eq (by omega), hlt⟩
  obtain ⟨hb, hbLt⟩ := hchannel previousPixel
  obtain ⟨hg, hgLt⟩ := hchannel (previousPixel >>> 8)
  obtain ⟨hr, hrLt⟩ := hchannel (previousPixel >>> 16)
  obtain ⟨deltaB, hdeltaB, _, _⟩ := scaled_some (by decide)
    (toNat_and_lt (by decide) : (packedDelta &&& 0x1f).toNat < 2 ^ 5) hrange
  obtain ⟨deltaG, hdeltaG, _, _⟩ := scaled_some (by decide)
    (toNat_and_lt (by decide) : ((packedDelta >>> 5) &&& 0x3f).toNat < 2 ^ 6) hrange
  obtain ⟨deltaR, hdeltaR, _, _⟩ := scaled_some (by decide)
    (toNat_and_lt (by decide) : ((packedDelta >>> 11) &&& 0x1f).toNat < 2 ^ 5) hrange
  rw [applyMaskedQuantDelta, bind_of_eq_some (i32Bit_eq (by omega))]
  simp only [hb, hg, hr]
  rw [bind_of_eq_some hdeltaB, bind_of_eq_some hdeltaG, bind_of_eq_some hdeltaR,
    bind_of_eq_some (i32_eq (by omega)), bind_of_eq_some (i32_eq (by omega)),
    bind_of_eq_some (i32_eq (by omega))]
  exact ⟨_, rfl⟩

theorem ycocgToBgra_some {y co cg : ℤ} (hy : 0 ≤ y ∧ y < 256) (hco : -2048 ≤ co ∧ co ≤ 2048)
    (hcg : -2048 ≤ cg ∧ cg ≤ 2048) : ∃ color, ycocgToBgra y co cg = some color := by
  rw [ycocgToBgra, bind_of_eq_some (i32_eq (by omega)),
    bind_of_eq_some (i32_eq (by omega)), bind_of_eq_some (i32_eq (by omega)),
    bind_of_eq_some (i32_eq (by omega))]
  exact ⟨_, rfl⟩

/-! ## The commands -/

variable {condition : Bool} {description : String}

theorem returns_require : Returns (fun _ => condition = true) (require condition description) := by
  cases condition
  · exact returns_throw
  · exact returns_pure rfl

theorem returns_readWord (bytes : Bytes) {base index : ℕ} (h : base + index * 4 < 2 ^ 64) :
    Returns (fun _ => True) (readWord bytes base index) :=
  .lift_bind (usizeMul_eq (by omega)) (.lift_bind (usizeAdd_eq h)
    fun atlas => (returns_lift_except atlas).mono fun _ _ hread => ⟨hread.1, fun _ _ => trivial⟩)

theorem returns_checkedAdd (a b : ℕ) (description : String) :
    Returns (· = a + b) (Tile.checkedAdd a b description) := by
  unfold Tile.checkedAdd usizeAdd
  split_ifs
  · exact returns_pure rfl
  · exact returns_throw

section Painters

variable {P : Bytes → Prop}

theorem maintains_draw {f : Bytes → Option Bytes}
    (h : ∀ atlas, P atlas → ∃ atlas', f atlas = some atlas' ∧ P atlas') : Maintains P (draw f) := by
  intro atlas hatlas
  obtain ⟨atlas', hf, hatlas'⟩ := h atlas hatlas
  simp only [draw, yields_bind, yields_get, hf, yields_lift_some, yields_set]
  exact hatlas'

variable {α : Type}

theorem maintains_require_bind {p : Unit → Painter α} (h : condition = true → Maintains P (p ())) :
    Maintains P (require condition description >>= p) :=
  returns_require.maintains_bind fun _ => h

theorem maintains_readWord (bytes : Bytes) {base index : ℕ} (h : base + index * 4 < 2 ^ 64) :
    Maintains P (readWord bytes base index) :=
  (returns_readWord bytes h).maintains

theorem maintains_checkedAdd_bind {a b : ℕ} {p : ℕ → Painter α} (h : Maintains P (p (a + b))) :
    Maintains P (Tile.checkedAdd a b description >>= p) :=
  (returns_checkedAdd a b description).maintains_bind fun _ hsum => hsum ▸ h

theorem maintains_checkedMul_bind {a b : ℕ} {p : ℕ → Painter α} (h : Maintains P (p (a * b))) :
    Maintains P (Tile.checkedMul a b description >>= p) := by
  unfold Tile.checkedMul usizeMul
  split_ifs
  · exact fun atlas hatlas => yields_bind.mpr (h atlas hatlas)
  · exact fun _ hatlas => yields_bind.mpr hatlas

theorem maintains_readPreviousPixel (previous : Bytes)
    {x y width height desktopWidth desktopHeight : UInt32}
    (hfits : Fits x y width height desktopWidth desktopHeight)
    (harea : Area desktopWidth desktopHeight) (hpixel : pixel < width.toNat * height.toNat) :
    Maintains P (readPreviousPixel previous desktopWidth x y width pixel) := by
  obtain ⟨hne, hrow, hcol, hend⟩ := hfits.pixelEnd hpixel
  have hlimit := desktopHeight.toNat_lt
  rw [← Nat.mul_assoc] at hend
  refine .lift_bind (usizeDiv_eq hne) (.lift_bind (usizeRem_eq hne) ?_)
  refine .lift_bind (usizeAdd_eq (by omega)) (.lift_bind (usizeMul_eq (by omega)) ?_)
  refine .lift_bind (usizeAdd_eq (by omega)) (.lift_bind (usizeAdd_eq (by omega)) ?_)
  split
  · exact maintains_throw
  · exact maintains_lift_except

end Painters

/-- The tile is inside the atlas; its sizes come from half words of the stream. -/
structure Tile.Placed (tile : Tile) (atlasWidth atlasHeight : UInt32) : Prop where
  area : Area atlasWidth atlasHeight
  fits : Fits tile.atlasX tile.atlasY tile.width tile.height atlasWidth atlasHeight
  width_lt : tile.width.toNat < 2 ^ 16
  height_lt : tile.height.toNat < 2 ^ 16
  payload_lt : tile.payload.length < 2 ^ 32

def Desktop.Sized (desktop : Desktop) : Prop :=
  ∀ previous, desktop.previous = some previous → HasArea desktop.width desktop.height previous

theorem luminance_bounds (word : UInt32) : 0 ≤ asI32 (((word &&& 0x0f) <<< 4) ||| (word &&& 0x0f)) ∧
      asI32 (((word &&& 0x0f) <<< 4) ||| (word &&& 0x0f)) < 256 := by
  have hlow : (word &&& 0x0f).toNat < 16 := toNat_and_lt (by decide)
  have hhigh : ((word &&& 0x0f) <<< 4).toNat < 2 ^ 8 := by
    rw [UInt32.toNat_shiftLeft]
    simp only [UInt32.reduceToNat, Nat.reduceMod, Nat.shiftLeft_eq]
    omega
  have hor : (((word &&& 0x0f) <<< 4) ||| (word &&& 0x0f)).toNat < 2 ^ 8 := by
    rw [UInt32.toNat_or]
    exact Nat.or_lt_two_pow hhigh (by omega)
  rw [asI32_eq (by omega)]
  omega

theorem divCeil_le (n : ℕ) {k : ℕ} (hk : 0 < k) : divCeil n k ≤ n := by
  rw [divCeil, Nat.div_le_iff_le_mul_add_pred hk]
  exact Nat.add_le_add_right (Nat.le_mul_of_pos_left n hk) _

section Tiles

variable {tile : Tile} {atlasWidth atlasHeight : UInt32} {desktop : Desktop}
  (htile : tile.Placed atlasWidth atlasHeight)
include htile

theorem Tile.Placed.pixels_lt : tile.width.toNat * tile.height.toNat < 2 ^ 32 := by
  have hwidth := htile.width_lt
  have hheight := htile.height_lt
  calc tile.width.toNat * tile.height.toNat ≤ tile.width.toNat * 2 ^ 16 :=
        Nat.mul_le_mul_left _ hheight.le
    _ < 2 ^ 32 := by omega

theorem maintains_write (hpixel : pixel < tile.width.toNat * tile.height.toNat) (color : UInt32) :
    Maintains (HasArea atlasWidth atlasHeight) (tile.write (atlasWidth.toNat * 4) pixel color) :=
  maintains_draw fun _ hatlas =>
    writePixel_some htile.fits hatlas hpixel (length_u32Bytes color)

theorem maintains_solidColor :
    Maintains (HasArea atlasWidth atlasHeight) (tile.solidColor (atlasWidth.toNat * 4)) := by
  refine maintains_require_bind fun _ => .except_bind fun color _ => ?_
  exact maintains_draw fun _ hatlas =>
    fillRect_some htile.fits hatlas (length_u32Bytes color)

theorem maintains_rawBgra :
    Maintains (HasArea atlasWidth atlasHeight) (tile.rawBgra (atlasWidth.toNat * 4)) := by
  have hpixels := htile.pixels_lt
  have hwidth := htile.width_lt
  have hbytes : tile.width.toNat * 4 * tile.height.toNat =
      tile.width.toNat * tile.height.toNat * 4 := Nat.mul_right_comm _ _ _
  refine .lift_bind (usizeMul_eq (by omega)) (.lift_bind (usizeMul_eq (by omega)) ?_)
  refine maintains_require_bind fun hlength => .forM fun row hrow => ?_
  rw [List.mem_range] at hrow
  have hpayload := of_decide_eq_true hlength
  have hsrc : row * (tile.width.toNat * 4) + tile.width.toNat * 4 ≤ tile.payload.length := by
    calc row * (tile.width.toNat * 4) + tile.width.toNat * 4
        = (row + 1) * (tile.width.toNat * 4) := by ring
      _ ≤ tile.height.toNat * (tile.width.toNat * 4) := Nat.mul_le_mul_right _ hrow
      _ = tile.payload.length := by rw [hpayload, Nat.mul_comm]
  obtain ⟨dst, hdst, hend⟩ := rowStart_some htile.fits htile.area hrow
  obtain ⟨bytes, hslice, hlength⟩ := sliceFrom_some hsrc (by omega)
  refine .lift_bind (usizeMul_eq (by omega)) (.lift_bind hdst (.lift_bind hslice ?_))
  exact maintains_draw fun atlas hatlas => copyAt_some hatlas hend hlength

theorem maintains_writeXor (previous : Bytes)
    (hfits : Fits tile.desktopX tile.desktopY tile.width tile.height desktop.width desktop.height)
    (harea : Area desktop.width desktop.height)
    (hpixel : pixel < tile.width.toNat * tile.height.toNat) (offset : ℕ) :
    Maintains (HasArea atlasWidth atlasHeight)
      (tile.writeXor (atlasWidth.toNat * 4) desktop previous pixel offset) :=
  (maintains_readPreviousPixel previous hfits harea hpixel).bind fun _ =>
    .except_bind fun _ _ => maintains_write htile hpixel _

theorem maintains_xor (hdesktop : desktop.Sized) (raw : Bool) :
    Maintains (HasArea atlasWidth atlasHeight) (tile.xor (atlasWidth.toNat * 4) desktop raw) := by
  have hpixels := htile.pixels_lt
  unfold Tile.xor
  cases hprevious : desktop.previous with
  | none => exact maintains_throw
  | some previous =>
    have hsized := hdesktop previous hprevious
    refine .except_bind fun _ hvalid => ?_
    have hfits := fits_of_validateRect hvalid
    refine (maintains_draw fun atlas hatlas => ?_).bind fun _ => ?_
    · have hwidth := desktop.width.toNat_lt
      rw [copyPreviousRect, bind_of_eq_some (usizeMul_eq (by omega))]
      exact copyRows_some hfits hsized htile.fits hatlas
    · cases raw with
      | true =>
        refine .lift_bind (usizeMul_eq (by omega)) (.lift_bind (usizeMul_eq (by omega)) ?_)
        refine maintains_require_bind fun _ => .forM fun pixel hpixel => ?_
        rw [List.mem_range] at hpixel
        refine .lift_bind (usizeMul_eq (by omega)) ?_
        exact maintains_writeXor htile previous hfits hsized.area hpixel _
      | false =>
        refine maintains_require_bind fun _ => .lift_bind (usizeMul_eq (by omega)) ?_
        refine .forM fun entryOffset hentry => .except_bind fun pixel _ => ?_
        refine maintains_require_bind fun hpixel => ?_
        obtain ⟨entry, hrange, rfl⟩ := List.mem_map.mp hentry
        rw [List.mem_range, divCeil] at hrange
        have hpayload := htile.payload_lt
        refine .lift_bind (usizeAdd_eq (by omega)) ?_
        exact maintains_writeXor htile previous hfits hsized.area (of_decide_eq_true hpixel) _

theorem maintains_maskedQuantDelta (hdesktop : desktop.Sized) :
    Maintains (HasArea atlasWidth atlasHeight)
      (tile.maskedQuantDelta (atlasWidth.toNat * 4) desktop) := by
  have hpixels := htile.pixels_lt
  unfold Tile.maskedQuantDelta
  cases hprevious : desktop.previous with
  | none => exact maintains_throw
  | some previous =>
    have hsized := hdesktop previous hprevious
    refine .except_bind fun _ hvalid => ?_
    have hfits := fits_of_validateRect hvalid
    refine .lift_bind (usizeMul_eq (by omega)) (maintains_require_bind fun _ => ?_)
    refine maintains_checkedMul_bind (maintains_checkedMul_bind ?_)
    refine maintains_checkedAdd_bind (maintains_checkedAdd_bind ?_)
    have hmask := divCeil_le (tile.width.toNat * tile.height.toNat) (by decide : 0 < 32)
    refine .lift_bind (bind_of_eq_some (usizeAdd_eq (by omega)) _) ?_
    refine maintains_require_bind fun _ => .except_bind fun header _ => ?_
    refine maintains_require_bind fun hshift => .lift_bind (usizeAdd_eq (by omega)) ?_
    refine Maintains.bind (.foldlM (fun pixel hpixel seen => ?_) 0) fun _ =>
      returns_require.maintains
    rw [List.mem_range] at hpixel
    refine (maintains_readPreviousPixel previous hfits hsized.area hpixel).bind
      fun previousPixel => ?_
    refine (maintains_readWord _ (by omega)).bind fun maskWord => ?_
    refine .lift_bind (u32Shl_eq (Nat.mod_lt _ (by decide))) ?_
    split
    · refine (maintains_readWord _ (by omega)).bind fun residualWord => ?_
      have hquant : (header &&& 0xff).toNat ≤ 4 :=
        UInt32.le_iff_toNat_le.mp (of_decide_eq_true hshift)
      obtain ⟨color, hcolor⟩ := applyMaskedQuantDelta_some previousPixel
        (halfWord residualWord pixel) hquant
      exact .lift_bind hcolor ((maintains_write htile hpixel color).bind fun _ => maintains_pure)
    · exact (maintains_write htile hpixel previousPixel).bind fun _ => maintains_pure

theorem maintains_lossyPixel {chromaOffset : ℕ}
    (hoffset : chromaOffset < 2 ^ 33) (hpixel : pixel < tile.width.toNat * tile.height.toNat) :
    Maintains (HasArea atlasWidth atlasHeight) (tile.lossyPixel (atlasWidth.toNat * 4)
      (divCeil tile.width.toNat 4) chromaOffset pixel) := by
  have hpixels := htile.pixels_lt
  have hwidth := htile.width_lt
  have hheight := htile.height_lt
  obtain ⟨hrow, hcol⟩ := pixel_inside htile.fits.width_ne hpixel
  have hne : tile.width.toNat ≠ 0 := by omega
  have hceil := divCeil_le tile.width.toNat (by decide : 0 < 4)
  have hchroma : pixel / tile.width.toNat / 4 * divCeil tile.width.toNat 4 < 2 ^ 32 := by
    calc pixel / tile.width.toNat / 4 * divCeil tile.width.toNat 4
        ≤ pixel / tile.width.toNat / 4 * 2 ^ 16 := Nat.mul_le_mul_left _ (by omega)
      _ < 2 ^ 32 := by omega
  refine (maintains_readWord _ (by omega)).bind fun yWord => ?_
  refine .lift_bind (u32Shr_eq (by omega)) ?_
  refine .lift_bind (usizeRem_eq hne) (.lift_bind (usizeDiv_eq hne) ?_)
  refine .lift_bind (usizeMul_eq (by omega)) (.lift_bind (usizeAdd_eq (by omega)) ?_)
  refine (maintains_readWord _ (by omega)).bind fun chromaWord => ?_
  refine .lift_bind (u32Shr_eq (by omega)) ?_
  generalize chromaWord >>> UInt32.ofNat _ &&& 0xff = chromaByte
  obtain ⟨co, hco, hcoBounds⟩ := scaled_some (by decide)
    (toNat_and_lt (by decide) : (chromaByte &&& 0x0f).toNat < 2 ^ 4)
    (by decide : (0 : ℤ) ≤ 32 ∧ (32 : ℤ) ≤ 32)
  obtain ⟨cg, hcg, hcgBounds⟩ := scaled_some (by decide)
    (toNat_and_lt (by decide) : ((chromaByte >>> 4) &&& 0x0f).toNat < 2 ^ 4)
    (by decide : (0 : ℤ) ≤ 32 ∧ (32 : ℤ) ≤ 32)
  obtain ⟨color, hcolor⟩ := ycocgToBgra_some (luminance_bounds _) hcoBounds hcgBounds
  exact .lift_bind hco (.lift_bind hcg (.lift_bind hcolor (maintains_write htile hpixel color)))

theorem maintains_lossyUiBlock :
    Maintains (HasArea atlasWidth atlasHeight) (tile.lossyUiBlock (atlasWidth.toNat * 4)) := by
  have hpixels := htile.pixels_lt
  have hwidth := htile.width_lt
  have hheight := htile.height_lt
  have hcolumns := divCeil_le tile.width.toNat (by decide : 0 < 4)
  have hrows := divCeil_le tile.height.toNat (by decide : 0 < 4)
  have hluminance := divCeil_le (tile.width.toNat * tile.height.toNat) (by decide : 0 < 2)
  have hchroma : divCeil tile.width.toNat 4 * divCeil tile.height.toNat 4 < 2 ^ 32 :=
    (Nat.mul_le_mul hcolumns hrows).trans_lt hpixels
  refine .lift_bind (usizeMul_eq (by omega)) (maintains_checkedMul_bind ?_)
  refine .lift_bind (bind_of_eq_some (usizeAdd_eq (by omega)) _) ?_
  refine .lift_bind (bind_of_eq_some (usizeAdd_eq (by omega)) _) ?_
  refine maintains_checkedAdd_bind (maintains_checkedAdd_bind ?_)
  refine maintains_require_bind fun _ => .except_bind fun header _ => ?_
  refine maintains_require_bind fun _ => .lift_bind (usizeAdd_eq (by omega)) ?_
  refine .forM fun pixel hpixel => ?_
  exact maintains_lossyPixel htile (by omega) (List.mem_range.mp hpixel)

theorem maintains_sharpUiBlock :
    Maintains (HasArea atlasWidth atlasHeight) (tile.sharpUiBlock (atlasWidth.toNat * 4)) := by
  have hpixels := htile.pixels_lt
  refine .lift_bind (usizeMul_eq (by omega)) (maintains_checkedMul_bind ?_)
  refine .lift_bind (bind_of_eq_some (usizeAdd_eq (by omega)) _) ?_
  refine maintains_require_bind fun _ => .forM fun pixel hpixel => ?_
  rw [List.mem_range] at hpixel
  exact (maintains_readWord _ (by omega)).bind fun _ => maintains_write htile hpixel _

theorem maintains_paint (hdesktop : desktop.Sized) :
    Maintains (HasArea atlasWidth atlasHeight) (tile.paint (atlasWidth.toNat * 4) desktop) := by
  unfold Tile.paint
  split
  · exact maintains_rawBgra htile
  · exact maintains_solidColor htile
  · exact maintains_xor htile hdesktop true
  · exact maintains_xor htile hdesktop false
  · exact maintains_maskedQuantDelta htile hdesktop
  · exact maintains_lossyUiBlock htile
  · exact maintains_sharpUiBlock htile
  · exact maintains_throw

end Tiles

/-! ## The stream -/

section Stream

variable {bytes : Bytes} {atlasWidth atlasHeight : UInt32} {desktop : Desktop}

/-- A command that is read lies inside the atlas, and the next one comes after it. -/
theorem returns_readTile (hbytes : bytes.length < 2 ^ 32) (harea : Area atlasWidth atlasHeight)
    {offset : ℕ} (hoffset : offset < bytes.length) :
    Returns (fun read => read.1.Placed atlasWidth atlasHeight ∧ offset < read.2)
      (readTile bytes atlasWidth atlasHeight offset) := by
  unfold readTile tileCommandHeaderBytes
  refine .lift_bind (usizeAdd_eq (by omega)) (returns_require.bind fun _ _ => ?_)
  refine (returns_readWord bytes (by omega)).bind fun kind _ => ?_
  refine (returns_readWord bytes (by omega)).bind fun atlasXy _ => ?_
  refine (returns_readWord bytes (by omega)).bind fun desktopXy _ => ?_
  refine (returns_readWord bytes (by omega)).bind fun wh _ => ?_
  refine (returns_readWord bytes (by omega)).bind fun payloadLen _ => ?_
  refine (returns_readWord bytes (by omega)).bind fun changedCount _ => ?_
  refine .lift_bind (usizeAdd_eq (by omega)) ?_
  refine (returns_checkedAdd _ _ _).bind ?_
  rintro _ rfl
  refine returns_require.bind fun _ hend => returns_lift_except.bind fun _ hvalid => ?_
  have hpayload := of_decide_eq_true hend
  refine .lift_bind (if_pos ⟨Nat.le_add_right _ _, hpayload⟩) (returns_pure ⟨?_, ?_⟩)
  · refine ⟨harea, fits_of_validateRect hvalid, toNat_and_lt (by decide), ?_, ?_⟩
    · exact toNat_shiftRight_lt wh (by decide) (by decide)
    · simp only [List.length_take, List.length_drop]
      omega
  · simp only
    omega

theorem maintains_paintTiles (hbytes : bytes.length < 2 ^ 32) (harea : Area atlasWidth atlasHeight)
    (hdesktop : desktop.Sized) {fuel offset : ℕ} (hfuel : bytes.length ≤ fuel + offset) :
    Maintains (HasArea atlasWidth atlasHeight)
      (paintTiles bytes atlasWidth atlasHeight (atlasWidth.toNat * 4) desktop fuel offset) := by
  induction fuel generalizing offset with
  | zero =>
    unfold paintTiles
    rw [if_neg (by omega)]
    exact maintains_pure
  | succ fuel ih =>
    unfold paintTiles
    split
    · rename_i hoffset
      intro atlas hatlas
      refine (returns_readTile hbytes harea hoffset).maintains_bind ?_ atlas hatlas
      rintro ⟨tile, next⟩ ⟨hplaced, hnext⟩
      exact (maintains_paint hplaced hdesktop).bind fun _ => ih (by omega)
    · exact maintains_pure

theorem returns_ensure : Returns (fun _ => condition = true) (ensure condition description) := by
  cases condition
  · exact returns_throw
  · exact returns_pure rfl

theorem returns_reconstructAtlasFromAtx2 (bytes : Bytes) (atlasWidth atlasHeight : UInt32)
    (hdesktop : desktop.Sized) :
    Returns (HasArea atlasWidth atlasHeight)
      (reconstructAtlasFromAtx2 bytes atlasWidth atlasHeight desktop) := by
  refine returns_ensure.bind fun _ _ => returns_lift_except.bind fun magic _ => ?_
  refine returns_ensure.bind fun _ _ => returns_lift_except.bind fun version _ => ?_
  refine returns_ensure.bind fun _ _ => returns_lift_except.bind fun byteLength _ => ?_
  refine returns_ensure.bind fun _ hlength => returns_lift_except.bind fun len hlen => ?_
  obtain ⟨rfl, harea⟩ := frameLen_eq_ok hlen
  have hbytes : bytes.length < 2 ^ 32 := of_decide_eq_true hlength ▸ byteLength.toNat_lt
  have hwidth := atlasWidth.toNat_lt
  refine .lift_bind (usizeMul_eq (by omega)) ?_
  have hpaint := maintains_paintTiles hbytes harea hdesktop
    (by omega : bytes.length ≤ bytes.length + tileCommandStreamHeaderBytes)
  exact returns_onValue hpaint ⟨List.length_replicate, harea⟩

end Stream

/-! ## The records -/

/-- The buffer has the size of the desktop. -/
def Compositor.Sized (s : Compositor) : Prop := HasArea s.width s.height s.bgra

variable (frameId : UInt64)

theorem yields_beginFrame (width height : UInt32) {s : Compositor} (hs : s.Sized) :
    Yields (beginFrame frameId width height)
      (fun result s' =>
        s'.Sized ∧ (result = .ok () → s'.width = width ∧ s'.height = height)) s := by
  simp only [beginFrame, yields_bind, yields_lift_except]
  cases hlen : frameLen width height with
  | error e => exact ⟨hs, fun hok => by cases hok⟩
  | ok len =>
    obtain ⟨rfl, harea⟩ := frameLen_eq_ok hlen
    simp only [yields_get, yields_set]
    split
    · exact ⟨⟨List.length_replicate, harea⟩, fun _ => ⟨rfl, rfl⟩⟩
    · rename_i hsame
      simp only [not_or, not_not] at hsame
      exact ⟨hs, fun _ => ⟨hsame.1, hsame.2.1⟩⟩

theorem maintains_beginFrame (width height : UInt32) :
    Maintains Compositor.Sized (beginFrame frameId width height) :=
  fun _ hs => (yields_beginFrame frameId width height hs).mono fun _ _ h => h.1

theorem maintains_ensureFrame : Maintains Compositor.Sized (ensureFrame frameId) := by
  intro s hs
  simp only [ensureFrame, yields_bind, yields_get]
  exact returns_ensure.maintains s hs

theorem maintains_applyMove (srcX srcY dstX dstY width height : UInt32) :
    Maintains Compositor.Sized (applyMove srcX srcY dstX dstY width height) := by
  intro s hs
  have hwidth := s.width.toNat_lt
  rw [applyMove, yields_bind, yields_get]
  refine Maintains.except_bind (fun _ hsource => .except_bind fun _ htarget => ?_) s hs
  obtain ⟨bgra, hcopy, hbgra⟩ := copyRows_some (fits_of_validateRect hsource) hs
    (fits_of_validateRect htarget) hs
  exact .lift_bind (usizeMul_eq (by omega)) (.lift_bind hcopy fun _ _ => hbgra)

theorem maintains_copyAtlasRect {atlas : Bytes} {atlasWidth atlasHeight : UInt32}
    (hatlas : HasArea atlasWidth atlasHeight atlas) (rect : DisplayAtlasRect) :
    Maintains Compositor.Sized (copyAtlasRect atlas atlasWidth atlasHeight rect) := by
  intro s hs
  have hwidth := s.width.toNat_lt
  have hatlasWidth := atlasWidth.toNat_lt
  rw [copyAtlasRect, yields_bind, yields_get]
  refine Maintains.lift_bind (usizeMul_eq (by omega)) (.lift_bind (usizeMul_eq (by omega)) ?_) s hs
  refine .except_bind fun _ htarget => .except_bind fun _ hsource => ?_
  obtain ⟨bgra, hcopy, hbgra⟩ := copyRows_some (fits_of_validateRect hsource) hatlas
    (fits_of_validateRect htarget) hs
  exact .lift_bind hcopy fun _ _ => hbgra

theorem maintains_applyAtx2Atlas (atlasWidth atlasHeight : UInt32) (rects : List DisplayAtlasRect)
    (tileCommands : Bytes) :
    Maintains Compositor.Sized (applyAtx2Atlas atlasWidth atlasHeight rects tileCommands) := by
  unfold applyAtx2Atlas
  split
  · exact maintains_pure
  · intro s hs
    rw [yields_bind, yields_get]
    refine Returns.maintains_bind
      (returns_reconstructAtlasFromAtx2 tileCommands atlasWidth atlasHeight ?_) ?_ s hs
    · rintro previous ⟨⟩
      exact hs
    · exact fun atlas hatlas => .forM fun rect _ => maintains_copyAtlasRect hatlas rect

theorem sized_replaceBgra {s : Compositor} (hs : s.Sized) {expected : ℕ}
    (hexpected : s.bgra.length = expected) (bgra : Bytes) :
    Yields (replaceBgra expected bgra) (fun _ s' => s'.Sized) s := by
  refine returns_ensure.andThen (fun _ hlength => ?_) fun _ => hs
  have hend : 0 + s.bgra.length ≤ s.width.toNat * s.height.toNat * 4 := by
    rw [Nat.zero_add, hs.length]
  obtain ⟨bgra', hcopy, hbgra⟩ := copyAt_some hs hend
    ((of_decide_eq_true hlength).trans hexpected.symm)
  simp only [yields_bind, yields_get, hcopy, yields_lift_some, yields_set]
  exact hbgra

theorem maintains_applyKeyframe (zstd : Except String Bytes) (frameId : UInt64)
    (width height rawLen : UInt32) (payload : Bytes) :
    Maintains Compositor.Sized (applyKeyframe zstd frameId width height rawLen payload) := by
  intro s hs
  refine (yields_beginFrame frameId width height hs).bind ?_ fun _ _ h => h.1
  rintro _ s₁ ⟨hs₁, hsize⟩
  obtain ⟨hwidth, hheight⟩ := hsize rfl
  rw [yields_bind, yields_lift_except]
  cases hlen : frameLen width height with
  | error e => exact hs₁
  | ok expected =>
    have hexpected : s₁.bgra.length = expected := by
      rw [hs₁.length, hwidth, hheight, (frameLen_eq_ok hlen).1]
    simp only [yields_ite]
    refine ⟨fun _ => sized_replaceBgra hs₁ hexpected payload, fun _ => ⟨fun _ => ?_, fun _ => hs₁⟩⟩
    cases zstd with
    | ok bgra => exact sized_replaceBgra hs₁ hexpected bgra
    | error e => exact hs₁

theorem maintains_applyRecord (zstd : Except String Bytes) (record : DisplayRecord) :
    Maintains Compositor.Sized (applyRecord zstd record) := by
  cases record with
  | frameBegin frameId width height =>
    exact (maintains_beginFrame frameId width height).bind fun _ => maintains_pure
  | frameEnd frameId =>
    refine (maintains_ensureFrame frameId).bind fun _ s hs => ?_
    simp only [yields_bind, yields_modify, yields_get, yields_pure]
    exact hs
  | keyframe frameId width height rawLen payload =>
    exact (maintains_applyKeyframe zstd frameId width height rawLen payload).bind
      fun _ => maintains_pure
  | moveRect frameId srcX srcY dstX dstY width height =>
    exact (maintains_ensureFrame frameId).bind fun _ =>
      (maintains_applyMove srcX srcY dstX dstY width height).bind fun _ => maintains_pure
  | atlasH264 frameId flags atlasWidth atlasHeight rects payload =>
    exact (maintains_ensureFrame frameId).bind fun _ => maintains_throw
  | experimentalAtlasCommands frameId atlasWidth atlasHeight rects tileCommands =>
    exact (maintains_ensureFrame frameId).bind fun _ =>
      (maintains_applyAtx2Atlas atlasWidth atlasHeight rects tileCommands).bind
        fun _ => maintains_pure
  | experimentalAtlasCommandsChunk frameId flags chunkIndex chunkCount atlasWidth atlasHeight rects
      tileCommands =>
      exact (maintains_ensureFrame frameId).bind fun _ =>
        (maintains_applyAtx2Atlas atlasWidth atlasHeight rects tileCommands).bind
          fun _ => maintains_pure

/-! ## Runs -/

structure Input where
  bytes : Bytes
  zstd : Except String Bytes

/-- One call of `handle_record`; after a panic there is no state. -/
def step (state : Option Compositor) (input : Input) : Option Compositor :=
  match state with
  | none => none
  | some s => (handleRecord input.zstd s input.bytes).map Prod.snd

theorem sized_step {state : Option Compositor} (h : ∃ s, state = some s ∧ s.Sized) (input : Input) :
    ∃ s, step state input = some s ∧ s.Sized := by
  obtain ⟨s, rfl, hs⟩ := h
  rw [step, handleRecord]
  cases hdecode : (decodeDisplayRecord input.bytes :
      Option (Except DisplayRecordParseError DisplayRecord)) with
  | none => exact absurd hdecode (decodeDisplayRecord_ne_none input.bytes)
  | some result =>
    cases result with
    | error e => exact ⟨s, rfl, hs⟩
    | ok record =>
      obtain ⟨result, s', hexec, hs'⟩ := (maintains_applyRecord input.zstd record s hs).exists_exec
      exact ⟨s', congrArg (Option.map Prod.snd) hexec, hs'⟩

/-- After every sequence of calls no call has panicked and the buffer has the size of the desktop,
and from there no move and no stream of commands with any rectangles panics. -/
theorem cpu_compositor_memory_safe (inputs : List Input) :
    ∃ s, run step (some Compositor.new) inputs = some s ∧
      s.bgra.length = s.width.toNat * s.height.toNat * 4 ∧
      (∀ srcX srcY dstX dstY width height,
        (applyMove srcX srcY dstX dstY width height).exec s ≠ none) ∧
      ∀ atlasWidth atlasHeight rects tileCommands,
        (applyAtx2Atlas atlasWidth atlasHeight rects tileCommands).exec s ≠ none := by
  have hnew : Compositor.new.Sized := ⟨rfl, by decide⟩
  obtain ⟨s, hrun, hs⟩ := run_invariant (P := fun state => ∃ s, state = some s ∧ s.Sized)
    (fun _ input h => sized_step h input) ⟨Compositor.new, rfl, hnew⟩ inputs
  refine ⟨s, hrun, hs.length, ?_, ?_⟩
  · intro srcX srcY dstX dstY width height hpanic
    obtain ⟨_, _, hexec, -⟩ :=
      (maintains_applyMove srcX srcY dstX dstY width height s hs).exists_exec
    exact nomatch hpanic.symm.trans hexec
  · intro atlasWidth atlasHeight rects tileCommands hpanic
    obtain ⟨_, _, hexec, -⟩ :=
      (maintains_applyAtx2Atlas atlasWidth atlasHeight rects tileCommands s hs).exists_exec
    exact nomatch hpanic.symm.trans hexec

end Talos.Display.Cpu
