import Mathlib.Algebra.Group.Nat.Defs

/-!
# Colours and rectangles of commands

The functions on colours that the decoder of the worker's helper and the Metal kernel of
the viewer both have, on words of 32 bits, and the rectangle in the words of a command.
-/

namespace Talos.Tiles

/-! ## Colours -/

def signExtend (value bits : UInt32) : Int32 :=
  if value &&& (1 <<< (bits - 1)) = 0 then value.toInt32
  else value.toInt32 - (1 <<< bits : UInt32).toInt32

def clampU8 (value : Int32) : UInt32 := (max 0 (min value 255)).toUInt32

def rgb565ToBgra (value : UInt32) : UInt32 :=
  let b5 := value &&& 0x1f
  let g6 := (value >>> 5) &&& 0x3f
  let r5 := (value >>> 11) &&& 0x1f
  let b := (b5 <<< 3) ||| (b5 >>> 2)
  let g := (g6 <<< 2) ||| (g6 >>> 4)
  let r := (r5 <<< 3) ||| (r5 >>> 2)
  b ||| (g <<< 8) ||| (r <<< 16) ||| 0xff000000

def ycocgToBgra (y co cg : Int32) : UInt32 :=
  let tmp := y - (cg >>> 1)
  let g := cg + tmp
  let b := tmp - (co >>> 1)
  let r := b + co
  clampU8 b ||| (clampU8 g <<< 8) ||| (clampU8 r <<< 16) ||| 0xff000000

def applyMaskedQuantDelta (previous packed shift : UInt32) : UInt32 :=
  let factor : Int32 := (1 <<< shift : UInt32).toInt32
  let b := (previous &&& 0xff).toInt32 + signExtend (packed &&& 0x1f) 5 * factor
  let g := ((previous >>> 8) &&& 0xff).toInt32 + signExtend ((packed >>> 5) &&& 0x3f) 6 * factor
  let r := ((previous >>> 16) &&& 0xff).toInt32 + signExtend ((packed >>> 11) &&& 0x1f) 5 * factor
  clampU8 b ||| (clampU8 g <<< 8) ||| (clampU8 r <<< 16) ||| (previous &&& 0xff000000)

def halfWord (word pixel : UInt32) : UInt32 :=
  if pixel &&& 1 = 0 then word &&& 0xffff else word >>> 16

/-! ## Rectangles -/

structure Header where
  kind : UInt32
  atlasX : UInt32
  atlasY : UInt32
  desktopX : UInt32
  desktopY : UInt32
  width : UInt32
  height : UInt32
  payloadLen : UInt32

def Header.ofWords (kind atlasXy desktopXy wh payloadLen : UInt32) : Header where
  kind
  atlasX := atlasXy &&& 0xffff
  atlasY := atlasXy >>> 16
  desktopX := desktopXy &&& 0xffff
  desktopY := desktopXy >>> 16
  width := wh &&& 0xffff
  height := wh >>> 16
  payloadLen

def Header.Covers (command : Header) (x y : ℕ) : Prop :=
  command.atlasX.toNat ≤ x ∧ x < command.atlasX.toNat + command.width.toNat ∧
    command.atlasY.toNat ≤ y ∧ y < command.atlasY.toNat + command.height.toNat

instance (command : Header) (x y : ℕ) : Decidable (command.Covers x y) :=
  inferInstanceAs (Decidable (_ ∧ _ ∧ _ ∧ _))

/-- The halves of the words of a header are small. -/
structure Header.Packed (command : Header) : Prop where
  atlasX : command.atlasX.toNat < 2 ^ 16
  atlasY : command.atlasY.toNat < 2 ^ 16
  desktopX : command.desktopX.toNat < 2 ^ 16
  desktopY : command.desktopY.toNat < 2 ^ 16
  width : command.width.toNat < 2 ^ 16
  height : command.height.toNat < 2 ^ 16

theorem Header.ofWords_packed (kind atlasXy desktopXy wh payloadLen : UInt32) :
    (Header.ofWords kind atlasXy desktopXy wh payloadLen).Packed := by
  have hlow : ∀ word : UInt32, (word &&& 0xffff).toNat < 2 ^ 16 := fun word => by
    simpa using Nat.and_lt_two_pow word.toNat (show 65535 < 2 ^ 16 by decide)
  have hhigh : ∀ word : UInt32, (word >>> 16).toNat < 2 ^ 16 := fun word => by
    have := word.toNat_lt
    simp only [UInt32.toNat_shiftRight, UInt32.reduceToNat, Nat.shiftRight_eq_div_pow,
      Nat.reduceMod]
    omega
  exact ⟨hlow _, hhigh _, hlow _, hhigh _, hlow _, hhigh _⟩

end Talos.Tiles
