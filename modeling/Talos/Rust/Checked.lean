import Mathlib.Data.Nat.Notation
import Mathlib.Data.Int.Notation
import Mathlib.Tactic.Linarith

/-!
# Integer operations that may not overflow

An operation whose result does not fit, a division by zero and a shift by the width or
more are `none`. A `usize` has 64 bits and is a natural number; an `i32` is an integer.
-/

namespace Rust

def usizeAdd (a b : ℕ) : Option ℕ := if a + b < 2 ^ 64 then some (a + b) else none

def usizeMul (a b : ℕ) : Option ℕ := if a * b < 2 ^ 64 then some (a * b) else none

def usizeDiv (a b : ℕ) : Option ℕ := if b = 0 then none else some (a / b)

def usizeRem (a b : ℕ) : Option ℕ := if b = 0 then none else some (a % b)

/-- `u32::checked_add`. -/
def u32CheckedAdd (a b : UInt32) : Option UInt32 :=
  if a.toNat + b.toNat < 2 ^ 32 then some (a + b) else none

/-- The result of an operation on `i32`. -/
def i32 (n : ℤ) : Option ℤ := if -2 ^ 31 ≤ n ∧ n < 2 ^ 31 then some n else none

/-- `value as i32`. -/
def asI32 (value : UInt32) : ℤ := value.toBitVec.toInt

def u32Shl (value : UInt32) (amount : ℕ) : Option UInt32 :=
  if amount < 32 then some (value <<< UInt32.ofNat amount) else none

def u32Shr (value : UInt32) (amount : ℕ) : Option UInt32 :=
  if amount < 32 then some (value >>> UInt32.ofNat amount) else none

/-- `1i32 << amount`. -/
def i32Bit (amount : ℕ) : Option ℤ :=
  if amount < 32 then some ((1 : BitVec 32) <<< amount).toInt else none

section Values

variable {a b : ℕ}

theorem usizeAdd_eq (h : a + b < 2 ^ 64) : usizeAdd a b = some (a + b) := if_pos h

theorem usizeMul_eq (h : a * b < 2 ^ 64) : usizeMul a b = some (a * b) := if_pos h

theorem usizeDiv_eq (h : b ≠ 0) : usizeDiv a b = some (a / b) := if_neg h

theorem usizeRem_eq (h : b ≠ 0) : usizeRem a b = some (a % b) := if_neg h

theorem i32_eq {n : ℤ} (h : -2 ^ 31 ≤ n ∧ n < 2 ^ 31) : i32 n = some n := if_pos h

variable {value : UInt32} {amount : ℕ}

theorem u32Shl_eq (h : amount < 32) :
    u32Shl value amount = some (value <<< UInt32.ofNat amount) := if_pos h

theorem u32Shr_eq (h : amount < 32) :
    u32Shr value amount = some (value >>> UInt32.ofNat amount) := if_pos h

theorem i32Bit_eq (h : amount < 31) : i32Bit amount = some (2 ^ amount) := by
  have hpow : 2 ^ amount < 2 ^ 31 := Nat.pow_lt_pow_right (by decide) h
  have htoNat : ((1 : BitVec 32) <<< amount).toNat = 2 ^ amount := by
    rw [BitVec.toNat_shiftLeft, Nat.shiftLeft_eq, Nat.mod_eq_of_lt (by simpa using by omega)]
    simp
  rw [i32Bit, if_pos (by omega), BitVec.toInt_eq_toNat_of_lt (by omega), htoNat]
  push_cast
  rfl

theorem asI32_eq (h : value.toNat < 2 ^ 31) : asI32 value = value.toNat := by
  rw [asI32, BitVec.toInt_eq_toNat_of_lt (by simpa using by omega)]
  rfl

theorem toNat_and_lt {mask : UInt32} {n : ℕ} (h : mask.toNat < n) : (value &&& mask).toNat < n := by
  rw [UInt32.toNat_and]
  exact lt_of_le_of_lt Nat.and_le_right h

theorem toNat_shiftRight_lt (value : UInt32) {n : ℕ} (hamount : amount < 32)
    (h : 2 ^ 32 ≤ n * 2 ^ amount) : (value >>> UInt32.ofNat amount).toNat < n := by
  have hvalue := value.toNat_lt
  have hmod : (UInt32.ofNat amount).toNat % 32 = amount := by
    rw [UInt32.toNat_ofNat', Nat.mod_eq_of_lt (by omega : amount < 2 ^ 32),
      Nat.mod_eq_of_lt hamount]
  rw [UInt32.toNat_shiftRight, hmod, Nat.shiftRight_eq_div_pow]
  exact Nat.div_lt_of_lt_mul (by rw [Nat.mul_comm]; omega)

end Values

theorem bind_of_eq_some {α β : Type} {value : Option α} {a : α} (h : value = some a)
    (f : α → Option β) : (value >>= f) = f a := by
  rw [h]
  rfl

theorem foldlM_some {α β : Type*} {P : β → Prop} {f : β → α → Option β} {items : List α}
    (hstep : ∀ a ∈ items, ∀ b, P b → ∃ b', f b a = some b' ∧ P b') {b : β} (h : P b) :
    ∃ b', items.foldlM f b = some b' ∧ P b' := by
  induction items generalizing b with
  | nil => exact ⟨b, rfl, h⟩
  | cons a items ih =>
    obtain ⟨hfirst, hrest⟩ := List.forall_mem_cons.mp hstep
    obtain ⟨b', hb', h'⟩ := hfirst b h
    rw [List.foldlM_cons, hb']
    exact ih hrest h'

end Rust
