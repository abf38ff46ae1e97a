import Mathlib.Algebra.Order.Group.Nat
import Mathlib.Tactic.Ring

/-!
# Integers as bytes

A number of a fixed width as its bytes, the most significant first, and back.
-/

namespace Rust

/-- `n.to_be_bytes()` for an integer of `width` bytes. -/
def toBeBytes : ℕ → ℕ → List UInt8
  | 0, _ => []
  | width + 1, n => UInt8.ofNat (n / 256 ^ width) :: toBeBytes width n

def ofBeBytesFrom (n : ℕ) (bytes : List UInt8) : ℕ :=
  bytes.foldl (fun n byte => n * 256 + byte.toNat) n

/-- `from_be_bytes(bytes)`. -/
def ofBeBytes (bytes : List UInt8) : ℕ := ofBeBytesFrom 0 bytes

@[simp] theorem length_toBeBytes (width n : ℕ) : (toBeBytes width n).length = width := by
  induction width with
  | zero => rfl
  | succ width ih => rw [toBeBytes, List.length_cons, ih]

theorem ofBeBytesFrom_toBeBytes (width n start : ℕ) :
    ofBeBytesFrom start (toBeBytes width n) = start * 256 ^ width + n % 256 ^ width := by
  induction width generalizing start with
  | zero => simp [toBeBytes, ofBeBytesFrom, Nat.mod_one]
  | succ width ih =>
    have hfold : ofBeBytesFrom start (toBeBytes (width + 1) n) =
        ofBeBytesFrom (start * 256 + n / 256 ^ width % 256) (toBeBytes width n) := by
      simp [ofBeBytesFrom, toBeBytes]
    have hsplit : n % 256 ^ (width + 1) =
        n % 256 ^ width + 256 ^ width * (n / 256 ^ width % 256) := by
      rw [pow_succ, Nat.mod_mul]
    rw [hfold, ih, hsplit]
    ring

theorem ofBeBytes_toBeBytes {width n : ℕ} (hn : n < 256 ^ width) :
    ofBeBytes (toBeBytes width n) = n := by
  rw [ofBeBytes, ofBeBytesFrom_toBeBytes, Nat.mod_eq_of_lt hn, Nat.zero_mul, Nat.zero_add]

theorem toBeBytes_injective {width n m : ℕ} (hn : n < 256 ^ width) (hm : m < 256 ^ width)
    (h : toBeBytes width n = toBeBytes width m) : n = m := by
  rw [← ofBeBytes_toBeBytes hn, h, ofBeBytes_toBeBytes hm]

theorem ofBeBytesFrom_div (start : ℕ) (bytes : List UInt8) :
    ofBeBytesFrom start bytes / 256 ^ bytes.length = start := by
  have hbounds : start * 256 ^ bytes.length ≤ ofBeBytesFrom start bytes ∧
      ofBeBytesFrom start bytes < (start + 1) * 256 ^ bytes.length := by
    induction bytes generalizing start with
    | nil => simp [ofBeBytesFrom]
    | cons byte bytes ih =>
      obtain ⟨hlow, hhigh⟩ := ih (start * 256 + byte.toNat)
      have hbyte := byte.toNat_lt
      refine ⟨le_trans ?_ hlow, hhigh.trans_le ?_⟩ <;> rw [List.length_cons, pow_succ', ← mul_assoc]
      · exact Nat.mul_le_mul_right _ (Nat.le_add_right _ _)
      · exact Nat.mul_le_mul_right _ (by omega)
  exact Nat.div_eq_of_lt_le hbounds.1 hbounds.2

theorem toBeBytes_ofBeBytesFrom (start : ℕ) (bytes : List UInt8) :
    toBeBytes bytes.length (ofBeBytesFrom start bytes) = bytes := by
  induction bytes generalizing start with
  | nil => rfl
  | cons byte bytes ih =>
    have hhead : ofBeBytesFrom start (byte :: bytes) / 256 ^ bytes.length =
        start * 256 + byte.toNat := ofBeBytesFrom_div (start * 256 + byte.toNat) bytes
    rw [List.length_cons, toBeBytes, hhead]
    exact congrArg₂ List.cons (by simp [UInt8.ofNat_add, UInt8.ofNat_mul]) (ih _)

theorem toBeBytes_ofBeBytes (bytes : List UInt8) :
    toBeBytes bytes.length (ofBeBytes bytes) = bytes := toBeBytes_ofBeBytesFrom 0 bytes

end Rust
