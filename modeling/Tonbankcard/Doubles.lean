import Mathlib.Algebra.Order.Floor.Ring
import Mathlib.Data.Int.Log
import Mathlib.Data.Rat.Floor
import Mathlib.Tactic.Linarith
import Mathlib.Tactic.NormNum
import Mathlib.Tactic.Positivity

/-! The doubles nearest to rationals, as sums and differences of doubles are rounded, without the
bounds on exponents. Whole numbers below 2^53 are doubles, and nothing above is rounded below. -/
namespace Doubles

/-- The nearest whole number, of two the even one. -/
def roundHalfEven (q : ℚ) : ℤ :=
  if q - ⌊q⌋ < 1 / 2 then ⌊q⌋
  else if 1 / 2 < q - ⌊q⌋ then ⌊q⌋ + 1
  else if ⌊q⌋ % 2 = 0 then ⌊q⌋
  else ⌊q⌋ + 1

/-- The weight of the last of 53 digits. -/
def unit (q : ℚ) : ℚ := 2 ^ (Int.log 2 |q| - 52)

def nearest (q : ℚ) : ℚ := if q = 0 then 0 else roundHalfEven (q / unit q) * unit q

theorem le_roundHalfEven {q : ℚ} {n : ℤ} (below : (n : ℚ) ≤ q) : n ≤ roundHalfEven q := by
  have floor : n ≤ ⌊q⌋ := Int.le_floor.mpr below
  unfold roundHalfEven
  split_ifs <;> omega

theorem roundHalfEven_le {q : ℚ} {n : ℤ} (above : q ≤ (n : ℚ)) : roundHalfEven q ≤ n := by
  have floor : (⌊q⌋ : ℚ) ≤ q := Int.floor_le q
  have low : ⌊q⌋ ≤ n := by exact_mod_cast floor.trans above
  have exact_ (same : ⌊q⌋ = n) : q - ⌊q⌋ = 0 := by
    rw [same] at floor ⊢
    linarith
  by_cases same : ⌊q⌋ = n
  · unfold roundHalfEven
    rw [if_pos (by rw [exact_ same]; norm_num)]
    exact low
  · unfold roundHalfEven
    split_ifs <;> omega

theorem roundHalfEven_int (n : ℤ) : roundHalfEven n = n :=
  le_antisymm (roundHalfEven_le le_rfl) (le_roundHalfEven le_rfl)

theorem unit_pos (q : ℚ) : 0 < unit q := zpow_pos (by norm_num) _

/-- A whole number of fewer than 54 digits is a double. -/
theorem nearest_int {n : ℤ} (small : |n| < 2^53) : nearest n = n := by
  unfold nearest
  split_ifs with zero
  · exact zero.symm
  have positive : 0 < |(n : ℚ)| := abs_pos.mpr zero
  have log : Int.log 2 |(n : ℚ)| ≤ 52 := by
    have below : |(n : ℚ)| < (2 : ℕ) ^ (53 : ℤ) := by
      have cast : |(n : ℚ)| < 2^53 := by exact_mod_cast small
      exact cast
    have := (Int.lt_zpow_iff_log_lt (by norm_num) positive).mp below
    omega
  obtain ⟨digits,same⟩ := Int.eq_ofNat_of_zero_le (show 0 ≤ 52 - Int.log 2 |(n : ℚ)| by omega)
  have weight : unit n = ((2 : ℚ) ^ digits)⁻¹ := by
    have exponent : Int.log 2 |(n : ℚ)| - 52 = -(digits : ℤ) := by omega
    rw [unit,exponent,zpow_neg,zpow_natCast]
  have whole : (n : ℚ) / unit n = ((n * 2 ^ digits : ℤ) : ℚ) := by
    rw [weight,div_inv_eq_mul]
    push_cast
    rfl
  rw [whole,roundHalfEven_int,← whole,div_mul_cancel₀ _ (unit_pos n).ne']

/-- What has more digits keeps its magnitude above. -/
theorem nearest_far {q : ℚ} (far : 2^53 ≤ |q|) : 2^53 ≤ |nearest q| := by
  have positive : 0 < |q| := lt_of_lt_of_le (by norm_num) far
  have nonzero : q ≠ 0 := abs_pos.mp positive
  have log : 53 ≤ Int.log 2 |q| := by
    refine (Int.zpow_le_iff_le_log (by norm_num) positive).mp ?_
    exact far
  have first : (2 : ℚ)^52 * unit q ≤ |q| := by
    have power := Int.zpow_log_le_self (R := ℚ) (b := 2) (by norm_num) positive
    have split : (2 : ℚ)^52 * unit q = 2 ^ Int.log 2 |q| := by
      rw [unit,zpow_sub₀ (by norm_num)]
      exact mul_div_cancel₀ _ (by norm_num)
    rw [split]
    exact power
  have two : 2 ≤ unit q := by
    have mono := zpow_le_zpow_right₀ (a := (2 : ℚ)) (by norm_num)
      (show (1 : ℤ) ≤ Int.log 2 |q| - 52 by omega)
    rwa [zpow_one] at mono
  have weight := unit_pos q
  have digits : (2 : ℚ)^52 ≤ |(roundHalfEven (q / unit q) : ℚ)| := by
    rcases abs_cases q with ⟨same,-⟩ | ⟨same,-⟩
    · have below : (((2 : ℤ)^52 : ℤ) : ℚ) ≤ q / unit q := by
        rw [le_div_iff₀ weight]
        push_cast
        linarith
      have rounded := le_roundHalfEven below
      refine le_trans ?_ (le_abs_self _)
      exact_mod_cast rounded
    · have above : q / unit q ≤ ((-(2 : ℤ)^52 : ℤ) : ℚ) := by
        rw [div_le_iff₀ weight]
        push_cast
        linarith
      have rounded := roundHalfEven_le above
      refine le_trans ?_ (neg_le_abs _)
      have cast : ((roundHalfEven (q / unit q) : ℤ) : ℚ) ≤ ((-(2 : ℤ)^52 : ℤ) : ℚ) := by
        exact_mod_cast rounded
      push_cast at cast
      linarith
  rw [nearest,if_neg nonzero,abs_mul,abs_of_pos weight]
  calc (2 : ℚ)^53 = 2^52 * 2 := by norm_num
    _ ≤ |(roundHalfEven (q / unit q) : ℚ)| * unit q :=
      mul_le_mul digits two (by norm_num) (abs_nonneg _)

theorem nearest_nonneg {q : ℚ} (nonneg : 0 ≤ q) : 0 ≤ nearest q := by
  unfold nearest
  split_ifs
  · exact le_rfl
  · have quotient : ((0 : ℤ) : ℚ) ≤ q / unit q := by
      rw [Int.cast_zero]
      exact div_nonneg nonneg (unit_pos q).le
    exact mul_nonneg (by exact_mod_cast le_roundHalfEven quotient) (unit_pos q).le

/-- Rounding a whole number does not move it across a bound below 2^53. -/
theorem lt_nearest_iff {n : ℤ} {bound : ℚ} (small : bound < 2^53) :
    bound < |nearest n| ↔ bound < |(n : ℚ)| := by
  rcases lt_or_ge |n| (2^53) with exact_ | far
  · rw [nearest_int exact_]
  · have cast : (2 : ℚ)^53 ≤ |(n : ℚ)| := by exact_mod_cast far
    exact iff_of_true (small.trans_le (nearest_far cast)) (small.trans_le cast)

end Doubles
