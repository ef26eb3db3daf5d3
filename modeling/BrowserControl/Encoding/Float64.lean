import Mathlib.Data.Int.Log
import Mathlib.Data.Rat.Floor

/-!
# Numbers of 64 bits

A floating-point number of 64 bits has 53 binary digits and an exponent from -1074 on.
`Float64.ofRat` rounds a rational number to the nearest of them, and to the even one of two that
are equally near. There is none for numbers that are too large.

`toInt64` is the conversion to an integer of 64 bits. What it makes of numbers that are out of range
depends on the machine.
-/

namespace Encoding.Float64

/-- The nearest integer, and the even one of two. -/
def roundEven (q : ℚ) : ℤ :=
  if q - ⌊q⌋ < 1 / 2 then ⌊q⌋
  else if 1 / 2 < q - ⌊q⌋ then ⌊q⌋ + 1
  else if ⌊q⌋ % 2 = 0 then ⌊q⌋
  else ⌊q⌋ + 1

/-- The exponent of the last binary digit. -/
def exponent (q : ℚ) : ℤ := max (Int.log 2 |q|) (-1022) - 52

/-- The number that is nearest to `q`, if `q` is not too large. -/
def ofRat (q : ℚ) : Option ℚ :=
  let value : ℚ := roundEven (q / 2 ^ exponent q) * (2 : ℚ) ^ exponent q
  if |value| < 2 ^ 1024 then some value else none

/-- The conversion to an integer of 64 bits. -/
def toInt64 (overflow : ℚ → ℤ) (value : ℚ) : ℤ :=
  let n := if 0 ≤ value then ⌊value⌋ else ⌈value⌉
  if -2 ^ 63 ≤ n ∧ n < 2 ^ 63 then n else overflow value

/-! ### Rounding and the natural numbers -/

/-- An integer is not rounded. -/
theorem roundEven_intCast (n : ℤ) : roundEven n = n := by
  rw [roundEven, Int.floor_intCast, sub_self, if_pos (by norm_num)]

/-- Rounding goes to one of the two integers around. -/
theorem floor_le_roundEven (q : ℚ) : ⌊q⌋ ≤ roundEven q ∧ roundEven q ≤ ⌊q⌋ + 1 := by
  unfold roundEven
  split_ifs <;> omega

/-- What is above an integer is not rounded below it. -/
theorem le_roundEven {n : ℤ} {q : ℚ} (h : (n : ℚ) ≤ q) : n ≤ roundEven q :=
  (Int.le_floor.mpr h).trans (floor_le_roundEven q).1

/-- What is below an integer is not rounded above it. -/
theorem roundEven_le {q : ℚ} {n : ℤ} (h : q ≤ n) : roundEven q ≤ n := by
  obtain h_lt | h_eq := h.lt_or_eq
  · exact (floor_le_roundEven q).2.trans (Int.floor_lt.mpr h_lt)
  · rw [h_eq, roundEven_intCast]

/-- The number that is nearest to `q`, if numbers could be as large as one likes. -/
def nearest (q : ℚ) : ℚ := roundEven (q / 2 ^ exponent q) * (2 : ℚ) ^ exponent q

/-- A number is in range if its nearest float is. -/
theorem ofRat_eq (q : ℚ) : ofRat q = if |nearest q| < 2 ^ 1024 then some (nearest q) else none :=
  rfl

/-- What is found is the nearest number. -/
theorem eq_nearest {q v : ℚ} (h : ofRat q = some v) : v = nearest q := by
  rw [ofRat_eq] at h
  split_ifs at h
  exact (Option.some_inj.mp h).symm

/-- The last binary digit of a small number is no more than one. -/
theorem exponent_nonpos {q : ℚ} {n : ℕ} (h_nonneg : 0 ≤ q) (h : q ≤ n) (h_n : n < 2 ^ 53) :
    exponent q ≤ 0 := by
  -- A number below `2 ^ 53` needs no scaling up.
  have h_log : Int.log 2 |q| ≤ 52 := by
    rw [abs_of_nonneg h_nonneg]
    obtain h_pos | h_zero := h_nonneg.lt_or_eq
    · have h_ne : n ≠ 0 := by
        rintro rfl
        exact absurd (h_pos.trans_le h) (by norm_num)
      have h_lt := Nat.log_lt_of_lt_pow h_ne h_n
      calc Int.log 2 q ≤ Int.log 2 (n : ℚ) := Int.log_mono_right h_pos h
        _ = Nat.log 2 n := Int.log_natCast 2 n
        _ ≤ 52 := by omega
    · rw [← h_zero, Int.log_zero_right]
      norm_num
  unfold exponent
  omega

/-- A natural number is a multiple of such a digit. -/
theorem exists_natCast_div {e : ℤ} (h : e ≤ 0) (n : ℕ) :
    ∃ m : ℤ, (n : ℚ) / 2 ^ e = m := by
  obtain ⟨k, rfl⟩ := Int.exists_eq_neg_ofNat h
  refine ⟨(n * 2 ^ k : ℕ), ?_⟩
  rw [zpow_neg, div_inv_eq_mul, zpow_natCast]
  push_cast
  rfl

/-- Rounding does not go beyond a natural number with few binary digits. -/
theorem nearest_le_natCast {q : ℚ} {n : ℕ} (h_nonneg : 0 ≤ q) (h : q ≤ n) (h_n : n < 2 ^ 53) :
    nearest q ≤ n := by
  have h_pos : (0 : ℚ) < 2 ^ exponent q := zpow_pos two_pos _
  obtain ⟨m, h_m⟩ := exists_natCast_div (exponent_nonpos h_nonneg h h_n) n
  have h_le : q / 2 ^ exponent q ≤ m := by
    rw [← h_m]
    exact div_le_div_of_nonneg_right h h_pos.le
  calc nearest q ≤ m * 2 ^ exponent q :=
        mul_le_mul_of_nonneg_right (Int.cast_le.mpr (roundEven_le h_le)) h_pos.le
    _ = n := by rw [← h_m, div_mul_cancel₀ _ h_pos.ne']

/-- What is above a small integer is not rounded below it. -/
theorem natCast_le_nearest {q : ℚ} {n : ℕ} (h : (n : ℚ) ≤ q) (h_n : n < 2 ^ 53) :
    (n : ℚ) ≤ nearest q := by
  have h_pos : (0 : ℚ) < 2 ^ exponent q := zpow_pos two_pos _
  have h_nonneg : 0 ≤ q := n.cast_nonneg.trans h
  obtain h_exponent | h_exponent := le_or_gt (exponent q) 0
  -- `n` is a multiple of the last place, and rounding keeps the order
  · obtain ⟨m, h_m⟩ := exists_natCast_div h_exponent n
    have h_le : m ≤ q / 2 ^ exponent q := by
      rw [← h_m]
      exact div_le_div_of_nonneg_right h h_pos.le
    calc (n : ℚ) = m * 2 ^ exponent q := by rw [← h_m, div_mul_cancel₀ _ h_pos.ne']
      _ ≤ nearest q := mul_le_mul_of_nonneg_right (Int.cast_le.mpr (le_roundEven h_le)) h_pos.le
  · -- The number has more digits than `n`.
    have h_log : Int.log 2 q = exponent q + 52 := by
      unfold exponent at h_exponent ⊢
      rw [abs_of_nonneg h_nonneg] at h_exponent ⊢
      omega
    have h_q : 0 < q := by
      refine h_nonneg.lt_of_ne ?_
      rintro rfl
      rw [Int.log_zero_right] at h_log
      omega
    have h_le : ((2 ^ 52 : ℕ) : ℤ) ≤ q / 2 ^ exponent q := by
      rw [le_div_iff₀ h_pos]
      calc (((2 ^ 52 : ℕ) : ℤ) : ℚ) * 2 ^ exponent q = 2 ^ Int.log 2 q := by
            rw [h_log, zpow_add₀ two_ne_zero, mul_comm]
            norm_num
        _ ≤ q := Int.zpow_log_le_self one_lt_two h_q
    have h_two : (2 : ℚ) ^ (1 : ℤ) ≤ 2 ^ exponent q := zpow_le_zpow_right₀ one_le_two h_exponent
    calc (n : ℚ) ≤ ((2 ^ 52 : ℕ) : ℤ) * 2 ^ (1 : ℤ) := by
          norm_num
          exact_mod_cast h_n.le
      _ ≤ ((2 ^ 52 : ℕ) : ℤ) * 2 ^ exponent q := mul_le_mul_of_nonneg_left h_two (by norm_num)
      _ ≤ nearest q := mul_le_mul_of_nonneg_right (Int.cast_le.mpr (le_roundEven h_le)) h_pos.le

/-- A small number is not too large. -/
theorem ofRat_of_le {q : ℚ} {n : ℕ} (h_nonneg : 0 ≤ q) (h : q ≤ n) (h_n : n < 2 ^ 53) :
    ofRat q = some (nearest q) := by
  have h_nearest : 0 ≤ nearest q := by
    have h_zero : ((0 : ℕ) : ℚ) ≤ q := by simpa using h_nonneg
    simpa using natCast_le_nearest h_zero (by norm_num)
  rw [ofRat_eq, if_pos]
  calc |nearest q| = nearest q := abs_of_nonneg h_nearest
    _ ≤ n := nearest_le_natCast h_nonneg h h_n
    _ < 2 ^ 53 := by exact_mod_cast h_n
    _ < 2 ^ 1024 := pow_lt_pow_right₀ (by norm_num) (by norm_num)

/-- A number with few binary digits is not rounded. -/
theorem ofRat_natCast {n : ℕ} (h : n < 2 ^ 53) : ofRat n = some (n : ℚ) := by
  have h_nearest : nearest n = n :=
    (nearest_le_natCast n.cast_nonneg le_rfl h).antisymm (natCast_le_nearest le_rfl h)
  rw [ofRat_of_le n.cast_nonneg le_rfl h, h_nearest]

/-! ### Conversion -/

/-- A number that is not negative loses its fraction. -/
theorem toInt64_of_floor_lt (overflow : ℚ → ℤ) {v : ℚ} (h_nonneg : 0 ≤ v) (h : ⌊v⌋ < 2 ^ 63) :
    toInt64 overflow v = ⌊v⌋ := by
  have h_floor : 0 ≤ ⌊v⌋ := Int.floor_nonneg.mpr h_nonneg
  rw [toInt64, if_pos h_nonneg, if_pos (by omega)]

/-- An integer that fits is converted exactly. -/
theorem toInt64_natCast (overflow : ℚ → ℤ) {n : ℕ} (h : n < 2 ^ 63) : toInt64 overflow n = n := by
  have h_floor : ⌊(n : ℚ)⌋ < 2 ^ 63 := by
    rw [Int.floor_natCast]
    omega
  rw [toInt64_of_floor_lt overflow n.cast_nonneg h_floor, Int.floor_natCast]

end Encoding.Float64
