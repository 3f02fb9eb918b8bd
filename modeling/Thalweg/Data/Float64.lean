import Mathlib.Data.Int.Log
import Mathlib.Data.Rat.Floor
import Mathlib.Algebra.Order.Field.Power
import Mathlib.Data.Nat.Cast.Field
import Mathlib.Tactic.NormNum

/-!
# Floating-point numbers of double precision

A number is a rational, and an operation rounds its exact result to the nearest rational with 53
binary digits, to the one with an even last digit where two are equally near. Exponents are not
bounded. Natural numbers below `2 ^ 53` are not rounded (`Float64.round_natCast`).
-/

namespace Float64

/-- The nearest integer, the even one of two. -/
def roundEven (q : ℚ) : ℤ :=
  if q - ⌊q⌋ < 1 / 2 then ⌊q⌋
  else if 1 / 2 < q - ⌊q⌋ then ⌊q⌋ + 1
  else if ⌊q⌋ % 2 = 0 then ⌊q⌋ else ⌊q⌋ + 1

/-- The value of the last of 53 binary digits of a number. -/
def lastPlace (q : ℚ) : ℚ := (2 : ℚ) ^ (Int.log 2 |q| - 52)

/-- The nearest number with 53 binary digits. -/
def round (q : ℚ) : ℚ := roundEven (q / lastPlace q) * lastPlace q

/-- The product, rounded. -/
def mul (a b : ℚ) : ℚ := round (a * b)

/-- The quotient, rounded. -/
def div (a b : ℚ) : ℚ := round (a / b)

theorem roundEven_intCast (z : ℤ) : roundEven z = z := by
  simp [roundEven]

theorem round_natCast {n : ℕ} (h : n < 2 ^ 53) : round n = n := by
  have hplace : lastPlace n ≠ 0 := zpow_ne_zero _ two_ne_zero
  rcases Nat.eq_zero_or_pos n with rfl | hn
  · have hzero : roundEven 0 = 0 := by simpa using roundEven_intCast 0
    simp [round, hzero]
  have hlog : Nat.log 2 n ≤ 52 := Nat.lt_succ_iff.mp (Nat.log_lt_of_lt_pow hn.ne' h)
  have hunit : (n : ℚ) / lastPlace n = ((n * 2 ^ (52 - Nat.log 2 n) : ℕ) : ℤ) := by
    have hexponent : (Int.log 2 |(n : ℚ)| - 52) = -((52 - Nat.log 2 n : ℕ) : ℤ) := by
      rw [Nat.abs_cast, Int.log_natCast]
      omega
    rw [lastPlace, hexponent, zpow_neg, zpow_natCast, div_inv_eq_mul]
    push_cast
    rfl
  rw [round, hunit, roundEven_intCast, ← hunit]
  exact div_mul_cancel₀ _ hplace

theorem mul_natCast {a b : ℕ} (h : a * b < 2 ^ 53) : mul a b = (a * b : ℕ) := by
  rw [mul, ← Nat.cast_mul, round_natCast h]

theorem div_natCast {a b : ℕ} (hdvd : b ∣ a) (hb : b ≠ 0) (h : a / b < 2 ^ 53) :
    div a b = (a / b : ℕ) := by
  rw [div, ← Nat.cast_div hdvd (Nat.cast_ne_zero.mpr hb), round_natCast h]

theorem abs_roundEven_sub_le (q : ℚ) : |(roundEven q : ℚ) - q| ≤ 1 / 2 := by
  have hfloor := Int.floor_le q
  have hlt := Int.lt_floor_add_one q
  unfold roundEven
  rw [abs_le]
  split_ifs with h1 h2 h3 <;> push_cast <;> constructor <;> linarith

/-- Rounding no more than doubles a number. -/
theorem abs_round_le (q : ℚ) : |round q| ≤ 2 * |q| := by
  rcases eq_or_ne q 0 with rfl | hq
  · have hzero : roundEven 0 = 0 := by simpa using roundEven_intCast 0
    simp [round, hzero]
  have hpos : 0 < lastPlace q := zpow_pos two_pos _
  have hplace : lastPlace q ≤ |q| := by
    have hexponent : Int.log 2 |q| - 52 ≤ Int.log 2 |q| := by omega
    calc lastPlace q ≤ (2 : ℚ) ^ Int.log 2 |q| := zpow_le_zpow_right₀ one_le_two hexponent
      _ ≤ |q| := Int.zpow_log_le_self (by decide) (abs_pos.mpr hq)
  have hround : round q - q = (roundEven (q / lastPlace q) - q / lastPlace q) * lastPlace q := by
    rw [sub_mul, div_mul_cancel₀ _ hpos.ne']
    rfl
  have hdistance : |round q - q| ≤ 1 / 2 * lastPlace q := by
    rw [hround, abs_mul, abs_of_pos hpos]
    exact mul_le_mul_of_nonneg_right (abs_roundEven_sub_le _) hpos.le
  calc |round q| = |round q - q + q| := by rw [sub_add_cancel]
    _ ≤ |round q - q| + |q| := abs_add_le _ _
    _ ≤ 2 * |q| := by linarith

end Float64
