import Talos.JavaScript.Number

/-!
# Rounding

Rounding to binary64 is odd and monotone, it keeps the integers up to `2 ^ 53`, and every
finite number is a multiple of the least positive one. So a subtraction of two numbers
has the sign of the exact difference.
-/

namespace JavaScript.Number

theorem roundHalfEven_natCast (m : ℕ) : roundHalfEven m = m := by
  simp [roundHalfEven]

theorem roundToDouble_neg (x : ℚ) : roundToDouble (-x) = (roundToDouble x).neg := by
  unfold roundToDouble
  rw [abs_neg]
  dsimp only
  rcases lt_trichotomy x 0 with hx | rfl | hx
  · rw [if_neg (neg_pos.mpr hx).ne', if_neg hx.ne, if_neg (neg_pos.mpr hx).not_gt, if_pos hx]
    split_ifs
    · simp [neg, hx, hx.le]
    · simp [neg]
  · rfl
  · rw [if_neg (neg_lt_zero.mpr hx).ne, if_neg hx.ne', if_pos (neg_lt_zero.mpr hx),
      if_neg hx.not_gt]
    split_ifs
    · simp [neg, hx, hx.le]
    · rfl

def leastDouble : ℚ := 2 ^ (-1074 : ℤ)

/-- A multiple of the least positive value, as every finite number is. -/
def OnGrid (x : ℚ) : Prop := ∃ k : ℤ, x = k * leastDouble

theorem leastDouble_pos : 0 < leastDouble := zpow_pos (by norm_num) _

theorem onGrid_intCast (n : ℤ) : OnGrid n := by
  refine ⟨n * 2 ^ 1074, ?_⟩
  rw [leastDouble, zpow_neg, zpow_ofNat, Int.cast_mul, Int.cast_pow, Int.cast_ofNat,
    mul_inv_cancel_right₀ (pow_ne_zero _ (by norm_num))]

variable {x y : ℚ}

theorem le_roundHalfEven (x : ℚ) : ⌊x⌋ ≤ roundHalfEven x ∧ roundHalfEven x ≤ ⌊x⌋ + 1 := by
  unfold roundHalfEven
  dsimp only
  split_ifs <;> omega

theorem roundHalfEven_mono (h : x ≤ y) : roundHalfEven x ≤ roundHalfEven y := by
  rcases (Int.floor_mono h).lt_or_eq with hlt | heq
  · have hx := (le_roundHalfEven x).2
    have hy := (le_roundHalfEven y).1
    omega
  · unfold roundHalfEven
    dsimp only
    rw [heq]
    split_ifs <;> first | omega | linarith

/-- The spacing of the values around a positive one. -/
def unitAt (x : ℚ) : ℚ := 2 ^ (max (Int.log 2 x) (-1022) - 52)

theorem unitAt_pos (x : ℚ) : 0 < unitAt x := zpow_pos (by norm_num) _

/-- A power of two is a multiple of every smaller one, and rounding does not cross it. -/
theorem roundHalfEven_power {e k : ℤ} (hk : k ≤ e) :
    (roundHalfEven ((2 : ℚ) ^ e / 2 ^ k) : ℚ) * 2 ^ k = 2 ^ e := by
  obtain ⟨n, hn⟩ := Int.eq_ofNat_of_zero_le (Int.sub_nonneg.mpr hk)
  have hdiv : (2 : ℚ) ^ e / 2 ^ k = ((2 ^ n : ℕ) : ℚ) := by
    rw [← zpow_sub₀ (by norm_num), hn]
    push_cast
    exact zpow_natCast 2 n
  rw [hdiv, roundHalfEven_natCast, Int.cast_natCast, ← hdiv]
  exact div_mul_cancel₀ _ (zpow_ne_zero _ (by norm_num))

/-- Rounding keeps the order, also across a change of the spacing. -/
theorem magnitude_mono (hx : 0 < x) (h : x ≤ y) :
    (roundHalfEven (x / unitAt x) : ℚ) * unitAt x ≤ roundHalfEven (y / unitAt y) * unitAt y := by
  have hlog : Int.log 2 x ≤ Int.log 2 y := Int.log_mono_right hx h
  rcases (max_le_max_right (-1022) hlog).lt_or_eq with hlt | heq
  · have hy : max (Int.log 2 y) (-1022) = Int.log 2 y := by omega
    set e := Int.log 2 y with he
    have hbelow : x < 2 ^ e := by
      have hself : x < (2 : ℚ) ^ (Int.log 2 x + 1) := by
        exact_mod_cast Int.lt_zpow_succ_log_self (b := 2) (by norm_num) x
      exact hself.trans_le (zpow_le_zpow_right₀ (by norm_num) (by omega))
    have habove : (2 : ℚ) ^ e ≤ y := by
      exact_mod_cast Int.zpow_log_le_self (b := 2) (by norm_num) (hx.trans_le h)
    have hunit (z : ℚ) := (unitAt_pos z).le
    calc (roundHalfEven (x / unitAt x) : ℚ) * unitAt x
      _ ≤ roundHalfEven (2 ^ e / unitAt x) * unitAt x := by
        refine mul_le_mul_of_nonneg_right ?_ (hunit x)
        exact_mod_cast roundHalfEven_mono (div_le_div_of_nonneg_right hbelow.le (hunit x))
      _ = 2 ^ e := roundHalfEven_power (by omega)
      _ = roundHalfEven (2 ^ e / unitAt y) * unitAt y := (roundHalfEven_power (by omega)).symm
      _ ≤ roundHalfEven (y / unitAt y) * unitAt y := by
        refine mul_le_mul_of_nonneg_right ?_ (hunit y)
        exact_mod_cast roundHalfEven_mono (div_le_div_of_nonneg_right habove (hunit y))
  · unfold unitAt
    rw [heq]
    refine mul_le_mul_of_nonneg_right ?_ (zpow_pos (by norm_num) _).le
    exact_mod_cast roundHalfEven_mono (div_le_div_of_nonneg_right h (zpow_pos (by norm_num) _).le)

theorem roundToDouble_eq {x : ℚ} (hx : 0 < x) : roundToDouble x =
    if (2 : ℚ) ^ (1024 : ℕ) ≤ roundHalfEven (x / unitAt x) * unitAt x then .infinity false
    else .finite (roundHalfEven (x / unitAt x) * unitAt x) := by
  unfold roundToDouble unitAt
  rw [if_neg hx.ne', abs_of_pos hx]
  simp only [hx.not_gt, if_false, decide_false]

/-- An integer of at most 53 bits is a value, and so is the next power of two. -/
theorem roundToDouble_natCast {n : ℕ} (h : n ≤ 2 ^ 53) : roundToDouble n = .finite n := by
  rcases n.eq_zero_or_pos with rfl | hpos
  · rfl
  have hx : (0 : ℚ) < n := Nat.cast_pos.mpr hpos
  have hexact : (roundHalfEven (n / unitAt n) : ℚ) * unitAt n = n := by
    rcases h.lt_or_eq with hlt | rfl
    · have hlog : Nat.log 2 n ≤ 52 := Nat.lt_succ_iff.mp (Nat.log_lt_of_lt_pow hpos.ne' hlt)
      have hunit : unitAt n = ((2 ^ (52 - Nat.log 2 n) : ℕ) : ℚ)⁻¹ := by
        rw [unitAt, Int.log_natCast, max_eq_left (by omega), Nat.cast_pow, Nat.cast_ofNat,
          ← zpow_natCast, ← zpow_neg]
        congr 1
        omega
      rw [hunit, div_inv_eq_mul, ← Nat.cast_mul, roundHalfEven_natCast]
      push_cast
      exact mul_inv_cancel_right₀ (pow_ne_zero _ two_ne_zero) _
    · have hlog : Int.log 2 ((2 ^ 53 : ℕ) : ℚ) = 53 := by
        rw [Int.log_natCast, Nat.log_pow Nat.one_lt_two]
        rfl
      have hpower := roundHalfEven_power (show (1 : ℤ) ≤ 53 by decide)
      have hunit : unitAt ((2 ^ 53 : ℕ) : ℚ) = 2 ^ (1 : ℤ) := by rw [unitAt, hlog]; rfl
      rw [hunit]
      exact_mod_cast hpower
  rw [roundToDouble_eq hx, hexact, if_neg]
  rw [not_le]
  exact_mod_cast h.trans_lt (Nat.pow_lt_pow_right Nat.one_lt_two (by decide))

/-- Counting goes on until the next power of two and stays there. -/
theorem add_one_natCast {n : ℕ} (h : n ≤ 2 ^ 53) :
    add (.finite n) (.finite 1) = .finite (min (n + 1) (2 ^ 53) : ℕ) := by
  rcases h.lt_or_eq with hlt | rfl
  · rw [Nat.min_eq_left hlt, ← roundToDouble_natCast hlt, Nat.cast_succ]
    rfl
  · decide +kernel

theorem roundToDouble_mono (hx : 0 ≤ x) (h : x ≤ y) :
    roundToDouble y = .infinity false ∨ ∃ x' y', roundToDouble x = .finite x' ∧
      roundToDouble y = .finite y' ∧ 0 ≤ x' ∧ x' ≤ y' := by
  have hnonneg : ∀ z : ℚ, 0 ≤ z → (0 : ℚ) ≤ roundHalfEven (z / unitAt z) * unitAt z := by
    intro z hz
    refine mul_nonneg ?_ (unitAt_pos z).le
    exact_mod_cast (Int.floor_nonneg.mpr (div_nonneg hz (unitAt_pos z).le)).trans
      (le_roundHalfEven _).1
  rcases hx.eq_or_lt with rfl | hpos
  · rcases h.eq_or_lt with rfl | hy
    · exact .inr ⟨0, 0, rfl, rfl, le_rfl, le_rfl⟩
    · rw [roundToDouble_eq hy]
      split_ifs
      · exact .inl rfl
      · exact .inr ⟨0, _, rfl, rfl, le_rfl, hnonneg y h⟩
  · have hmono := magnitude_mono hpos h
    rw [roundToDouble_eq hpos, roundToDouble_eq (hpos.trans_le h)]
    by_cases hy : (2 : ℚ) ^ (1024 : ℕ) ≤ roundHalfEven (y / unitAt y) * unitAt y
    · exact .inl (if_pos hy)
    · rw [if_neg hy, if_neg fun hlarge => hy (hlarge.trans hmono)]
      exact .inr ⟨_, _, rfl, rfl, hnonneg x hx, hmono⟩

theorem roundToDouble_pos {x : ℚ} (hx : leastDouble ≤ x) :
    roundToDouble x = .infinity false ∨ ∃ y, 0 < y ∧ roundToDouble x = .finite y := by
  have hpos : 0 < x := leastDouble_pos.trans_le hx
  have hle : unitAt x ≤ x := by
    have hself : (2 : ℚ) ^ Int.log 2 x ≤ x := by
      exact_mod_cast Int.zpow_log_le_self (b := 2) (by norm_num) hpos
    unfold unitAt
    rcases max_choice (Int.log 2 x) (-1022) with hmax | hmax <;> rw [hmax]
    · exact (zpow_le_zpow_right₀ (by norm_num) (by omega)).trans hself
    · exact hx
  have hround : 1 ≤ roundHalfEven (x / unitAt x) := by
    have hone := roundHalfEven_mono ((one_le_div (unitAt_pos x)).mpr hle)
    rwa [← Nat.cast_one, roundHalfEven_natCast, Nat.cast_one] at hone
  rw [roundToDouble_eq hpos]
  split_ifs
  · exact .inl rfl
  · exact .inr ⟨_, mul_pos (by exact_mod_cast hround) (unitAt_pos x), rfl⟩

/-- The sign of a difference is not lost by rounding. -/
theorem sub_sign (hx : OnGrid x) (hy : OnGrid y) :
    (ofInt 0).lt ((finite x).sub (finite y)) = decide (y < x) ∧
      ((finite x).sub (finite y)).same (ofInt 0) = decide (x = y) ∧
      ((finite x).sub (finite y)).truthy = decide (x ≠ y) := by
  have hsub : (finite x).sub (finite y) = roundToDouble (x - y) := by
    rw [sub_eq_add_neg]
    rfl
  have hleast : ∀ {x y : ℚ}, OnGrid x → OnGrid y → y < x → leastDouble ≤ x - y := by
    rintro _ _ ⟨k, rfl⟩ ⟨l, rfl⟩ hlt
    have hkl : l + 1 ≤ k := by exact_mod_cast (mul_lt_mul_iff_left₀ leastDouble_pos).mp hlt
    rw [← sub_mul]
    exact le_mul_of_one_le_left leastDouble_pos.le (by exact_mod_cast (by omega : 1 ≤ k - l))
  rw [hsub]
  rcases lt_trichotomy x y with h | rfl | h
  · rw [← neg_sub, roundToDouble_neg]
    rcases roundToDouble_pos (hleast hy hx h) with hround | ⟨z, hz, hround⟩ <;> rw [hround]
    · simp [neg, ofInt, lt, same, truthy, h.le, h.ne]
    · simp [neg, ofInt, lt, same, truthy, h.ne, hz.ne', hz.not_gt, h.not_gt]
  · simp [roundToDouble, ofInt, lt, same, truthy]
  · rcases roundToDouble_pos (hleast hx hy h) with hround | ⟨z, hz, hround⟩ <;> rw [hround]
    · simp [ofInt, lt, same, truthy, h, h.ne']
    · simp [ofInt, lt, same, truthy, h, h.ne', hz, hz.ne']

theorem sub_ofInt_sign (m n : ℤ) :
    (ofInt 0).lt ((ofInt m).sub (ofInt n)) = decide (n < m) ∧
      ((ofInt m).sub (ofInt n)).same (ofInt 0) = decide (m = n) := by
  have hsign := sub_sign (onGrid_intCast m) (onGrid_intCast n)
  simp only [Int.cast_lt, Int.cast_inj] at hsign
  exact ⟨hsign.1, hsign.2.1⟩

end JavaScript.Number
