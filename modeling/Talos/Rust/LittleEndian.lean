import Mathlib.Algebra.Order.Group.Nat
import Mathlib.Tactic.Ring

/-!
# Integers in little-endian order, and slices

A number of a fixed width as its bytes, the least significant first, and the two
readers that take such a number out of a byte string. A slice outside the string, which
is a panic, is `none`.
-/

namespace Rust

/-- `n.to_le_bytes()` for an integer of `width` bytes. -/
def toLeBytes : ℕ → ℕ → List UInt8
  | 0, _ => []
  | width + 1, n => UInt8.ofNat n :: toLeBytes width (n / 256)

/-- `from_le_bytes(bytes)`. -/
def ofLeBytes : List UInt8 → ℕ
  | [] => 0
  | byte :: bytes => byte.toNat + 256 * ofLeBytes bytes

@[simp] theorem length_toLeBytes (width n : ℕ) : (toLeBytes width n).length = width := by
  induction width generalizing n with
  | zero => rfl
  | succ width ih => rw [toLeBytes, List.length_cons, ih]

theorem ofLeBytes_toLeBytes {width n : ℕ} (hn : n < 256 ^ width) :
    ofLeBytes (toLeBytes width n) = n := by
  induction width generalizing n with
  | zero =>
    have hzero : n = 0 := by simpa using hn
    simp [toLeBytes, ofLeBytes, hzero]
  | succ width ih =>
    have hdiv : n / 256 < 256 ^ width := Nat.div_lt_of_lt_mul (by rwa [pow_succ'] at hn)
    have hbyte : (UInt8.ofNat n).toNat = n % 256 := by simp
    rw [toLeBytes, ofLeBytes, ih hdiv, hbyte]
    omega

variable (bytes : List UInt8)

theorem ofLeBytes_lt : ofLeBytes bytes < 256 ^ bytes.length := by
  induction bytes with
  | nil => simp [ofLeBytes]
  | cons byte bytes ih =>
    have hbyte := byte.toNat_lt
    rw [ofLeBytes, List.length_cons, pow_succ']
    omega

theorem toLeBytes_ofLeBytes : toLeBytes bytes.length (ofLeBytes bytes) = bytes := by
  induction bytes with
  | nil => rfl
  | cons byte bytes ih =>
    have hbyte := byte.toNat_lt
    have hfirst : UInt8.ofNat (byte.toNat + 256 * ofLeBytes bytes) = byte := by
      apply UInt8.toNat_inj.mp
      rw [UInt8.toNat_ofNat']
      omega
    have hrest : (byte.toNat + 256 * ofLeBytes bytes) / 256 = ofLeBytes bytes := by omega
    rw [ofLeBytes, List.length_cons, toLeBytes, hfirst, hrest, ih]

/-! ## The two widths -/

def u32Bytes (n : UInt32) : List UInt8 := toLeBytes 4 n.toNat

def u64Bytes (n : UInt64) : List UInt8 := toLeBytes 8 n.toNat

variable (n : UInt32)

@[simp] theorem length_u32Bytes : (u32Bytes n).length = 4 := length_toLeBytes 4 _

@[simp] theorem length_u64Bytes (n : UInt64) : (u64Bytes n).length = 8 := length_toLeBytes 8 _

def u32OfBytes : UInt32 := UInt32.ofNat (ofLeBytes bytes)

def u64OfBytes : UInt64 := UInt64.ofNat (ofLeBytes bytes)

@[simp] theorem u32OfBytes_u32Bytes : u32OfBytes (u32Bytes n) = n := by
  rw [u32OfBytes, u32Bytes, ofLeBytes_toLeBytes n.toNat_lt, UInt32.ofNat_toNat]

@[simp] theorem u64OfBytes_u64Bytes (n : UInt64) : u64OfBytes (u64Bytes n) = n := by
  rw [u64OfBytes, u64Bytes, ofLeBytes_toLeBytes n.toNat_lt, UInt64.ofNat_toNat]

variable {bytes : List UInt8}

theorem u32Bytes_u32OfBytes (h : bytes.length = 4) : u32Bytes (u32OfBytes bytes) = bytes := by
  have hlt : ofLeBytes bytes < 2 ^ 32 := by
    have hbound := ofLeBytes_lt bytes
    rw [h] at hbound
    omega
  have hbytes := toLeBytes_ofLeBytes bytes
  rw [h] at hbytes
  rw [u32Bytes, u32OfBytes, UInt32.toNat_ofNat', Nat.mod_eq_of_lt hlt, hbytes]

theorem u64Bytes_u64OfBytes (h : bytes.length = 8) : u64Bytes (u64OfBytes bytes) = bytes := by
  have hlt : ofLeBytes bytes < 2 ^ 64 := by
    have hbound := ofLeBytes_lt bytes
    rw [h] at hbound
    omega
  have hbytes := toLeBytes_ofLeBytes bytes
  rw [h] at hbytes
  rw [u64Bytes, u64OfBytes, UInt64.toNat_ofNat', Nat.mod_eq_of_lt hlt, hbytes]

theorem exists_u32Bytes (h : 4 ≤ bytes.length) : ∃ n rest, bytes = u32Bytes n ++ rest := by
  refine ⟨u32OfBytes (bytes.take 4), bytes.drop 4, ?_⟩
  rw [u32Bytes_u32OfBytes (by simpa using h), List.take_append_drop]

theorem exists_u64Bytes (h : 8 ≤ bytes.length) : ∃ n rest, bytes = u64Bytes n ++ rest := by
  refine ⟨u64OfBytes (bytes.take 8), bytes.drop 8, ?_⟩
  rw [u64Bytes_u64OfBytes (by simpa using h), List.take_append_drop]

theorem exists_words {k : ℕ} (h : 4 * k ≤ bytes.length) :
    ∃ (words : List UInt32) (rest : List UInt8), words.length = k ∧
      bytes = words.flatMap u32Bytes ++ rest := by
  induction k generalizing bytes with
  | zero => exact ⟨[], bytes, rfl, rfl⟩
  | succ k ih =>
    obtain ⟨n, rest, rfl⟩ : ∃ n rest, bytes = u32Bytes n ++ rest := exists_u32Bytes (by omega)
    rw [List.length_append, length_u32Bytes] at h
    obtain ⟨words, rest', hlen, rfl⟩ := (ih (by omega) : ∃ words rest', _ ∧ rest = _)
    exact ⟨n :: words, rest', by rw [List.length_cons, hlen], by simp⟩

/-! ## Slices -/

/-- `bytes[start..stop]`. -/
def slice {α : Type*} (bytes : List α) (start stop : ℕ) : Option (List α) :=
  if start ≤ stop ∧ stop ≤ bytes.length then some ((bytes.drop start).take (stop - start))
  else none

/-- `u32::from_le_bytes(bytes[at..at + 4].try_into().unwrap())`. -/
def readU32 (bytes : List UInt8) (start : ℕ) : Option UInt32 :=
  (slice bytes start (start + 4)).map u32OfBytes

def readU64 (bytes : List UInt8) (start : ℕ) : Option UInt64 :=
  (slice bytes start (start + 8)).map u64OfBytes

theorem slice_append {α : Type*} (first rest : List α) (start stop : ℕ) :
    slice (first ++ rest) (first.length + start) (first.length + stop) = slice rest start stop := by
  simp [slice, Nat.add_sub_add_left]

theorem slice_to_end {α : Type*} {bytes : List α} {start : ℕ} (h : start ≤ bytes.length) :
    slice bytes start bytes.length = some (bytes.drop start) := by
  simp [slice, h, List.take_of_length_le]

variable (rest : List UInt8)

@[simp] theorem readU32_u32Bytes : readU32 (u32Bytes n ++ rest) 0 = some n := by
  have htake : (u32Bytes n ++ rest).take 4 = u32Bytes n := List.take_left' (length_u32Bytes n)
  simp [readU32, slice, htake]

@[simp] theorem readU64_u64Bytes (n : UInt64) (rest : List UInt8) :
    readU64 (u64Bytes n ++ rest) 0 = some n := by
  have htake : (u64Bytes n ++ rest).take 8 = u64Bytes n := List.take_left' (length_u64Bytes n)
  simp [readU64, slice, htake]

@[simp] theorem readU32_self : readU32 (u32Bytes n) 0 = some n := by
  simpa using readU32_u32Bytes n []

@[simp] theorem readU64_self (n : UInt64) : readU64 (u64Bytes n) 0 = some n := by
  simpa using readU64_u64Bytes n []

/-- A reader at an offset skips the field at the front. -/
theorem readU32_append {first : List UInt8} {k : ℕ} (h : first.length = k) (rest : List UInt8)
    (start : ℕ) : readU32 (first ++ rest) (k + start) = readU32 rest start := by
  subst h
  rw [readU32, Nat.add_assoc, slice_append, readU32]

@[simp] theorem readU32_skip_u32 (start : ℕ) :
    readU32 (u32Bytes n ++ rest) (start + 4) = readU32 rest start := by
  rw [Nat.add_comm, readU32_append (length_u32Bytes n)]

@[simp] theorem readU32_skip_u64 (n : UInt64) (rest : List UInt8) (start : ℕ) :
    readU32 (u64Bytes n ++ rest) (start + 8) = readU32 rest start := by
  rw [Nat.add_comm, readU32_append (length_u64Bytes n)]

@[simp] theorem drop_u32Bytes (k : ℕ) : (u32Bytes n ++ rest).drop (k + 4) = rest.drop k := by
  rw [Nat.add_comm, ← length_u32Bytes n, List.drop_length_add_append]

@[simp] theorem drop_u64Bytes (n : UInt64) (rest : List UInt8) (k : ℕ) :
    (u64Bytes n ++ rest).drop (k + 8) = rest.drop k := by
  rw [Nat.add_comm, ← length_u64Bytes n, List.drop_length_add_append]

end Rust
