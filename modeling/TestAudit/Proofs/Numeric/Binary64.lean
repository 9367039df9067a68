import Mathlib.Algebra.Order.Field.Power
import Mathlib.Tactic.FieldSimp
import Mathlib.Tactic.Linarith
import Mathlib.Tactic.NormNum
import Mathlib.Tactic.Ring
import TestAudit.Numeric.Binary64

namespace TestAudit

/-!
# Where rounding to binary64 values ends

Quotients from half a unit above the greatest finite value on have no nearest value;
all others have one. The proof compares a quotient, as a rational number, with the grid
on which it is rounded.
-/

/-- Rounding reaches the even number above an odd quotient from the middle on. -/
theorem roundedQuotient_eq_succ_iff
    {numerator denominator : Nat}
    (positive : 0 < denominator)
    {odd : Nat}
    (isOdd : odd % 2 = 1)
    (bound : numerator / denominator ≤ odd) :
    roundedQuotient numerator denominator = odd + 1 ↔
      (2 * odd + 1) * denominator ≤ 2 * numerator := by
  have division := Nat.div_add_mod numerator denominator
  have remainder := Nat.mod_lt numerator positive
  rcases bound.lt_or_eq with below | reached
  · have far : denominator * (numerator / denominator) + denominator ≤ denominator * odd :=
      Nat.mul_succ .. ▸ Nat.mul_le_mul_left denominator below
    have notRounded : roundedQuotient numerator denominator ≤ numerator / denominator + 1 := by
      unfold roundedQuotient
      grind
    constructor
    · omega
    · intro middle
      rw [Nat.add_mul, Nat.mul_assoc, Nat.mul_comm odd] at middle
      omega
  · rw [reached] at division
    have middle :
        (2 * odd + 1) * denominator ≤ 2 * numerator ↔
          denominator ≤ 2 * (numerator % denominator) := by
      rw [Nat.add_mul, Nat.mul_assoc, Nat.mul_comm odd]
      omega
    rw [middle]
    unfold roundedQuotient
    grind

namespace Binary64

variable {numerator denominator : Nat}

theorem powerOfTwo_pos (exponent : Nat) : 0 < powerOfTwo exponent :=
  Nat.pow_pos (by decide)

theorem cast_powerOfTwo
    (exponent : Nat) :
    (powerOfTwo exponent : ℚ) = 2 ^ exponent := by
  simp [powerOfTwo]

/-- The integer and the unit on a grid have the ratio of the quotient to the grid. -/
theorem onGrid_ratio
    (exponent : Int) :
    ((onGrid numerator denominator exponent).1 : ℚ) /
        (onGrid numerator denominator exponent).2 =
      numerator / denominator / 2 ^ exponent := by
  simp only [onGrid, Nat.cast_mul, cast_powerOfTwo]
  rcases Int.le_total 0 exponent with up | down
  · obtain ⟨size, rfl⟩ := Int.eq_ofNat_of_zero_le up
    simp [div_div]
  · obtain ⟨size, opposite⟩ := Int.eq_ofNat_of_zero_le (Int.neg_nonneg_of_nonpos down)
    obtain rfl : exponent = -(size : Int) := by omega
    simp
    ring

theorem onGrid_unit_pos
    (positive : 0 < denominator)
    (exponent : Int) :
    0 < (onGrid numerator denominator exponent).2 :=
  Nat.mul_pos positive (powerOfTwo_pos _)

/-- The quotient lies within a factor of two of the power of two that the lengths give. -/
theorem ratio_bounds
    (numeratorPos : 0 < numerator)
    (denominatorPos : 0 < denominator) :
    (2 : ℚ) ^ ((numerator.log2 : Int) - denominator.log2 - 1) < numerator / denominator ∧
      (numerator / denominator : ℚ) < 2 ^ ((numerator.log2 : Int) - denominator.log2 + 1) := by
  have low : (2 : ℚ) ^ numerator.log2 ≤ numerator := by
    exact_mod_cast Nat.log2_self_le numeratorPos.ne'
  have high : (numerator : ℚ) < 2 ^ (numerator.log2 + 1) := by
    exact_mod_cast Nat.lt_log2_self
  have lowUnder : (2 : ℚ) ^ denominator.log2 ≤ denominator := by
    exact_mod_cast Nat.log2_self_le denominatorPos.ne'
  have highUnder : (denominator : ℚ) < 2 ^ (denominator.log2 + 1) := by
    exact_mod_cast Nat.lt_log2_self
  have positive : (0 : ℚ) < denominator := by exact_mod_cast denominatorPos
  have splitLow :
      (2 : ℚ) ^ ((numerator.log2 : Int) - denominator.log2 - 1) =
        2 ^ numerator.log2 / 2 ^ (denominator.log2 + 1) := by
    rw [sub_sub, zpow_sub₀ two_ne_zero]
    norm_cast
  have splitHigh :
      (2 : ℚ) ^ ((numerator.log2 : Int) - denominator.log2 + 1) =
        2 ^ (numerator.log2 + 1) / 2 ^ denominator.log2 := by
    rw [sub_add_eq_add_sub, zpow_sub₀ two_ne_zero]
    norm_cast
  rw [splitLow, splitHigh, div_lt_div_iff₀ (by positivity) positive,
    div_lt_div_iff₀ positive (by positivity)]
  constructor
  · calc (2 : ℚ) ^ numerator.log2 * denominator
        ≤ numerator * denominator := by gcongr
      _ < numerator * 2 ^ (denominator.log2 + 1) := by gcongr
  · calc (numerator : ℚ) * 2 ^ denominator.log2
        ≤ numerator * denominator := by gcongr
      _ < 2 ^ (numerator.log2 + 1) * denominator := by gcongr

/-- The integer part of a quotient on a grid is below a bound just when the quotient is. -/
theorem onGrid_div_lt_iff
    (denominatorPos : 0 < denominator)
    (exponent : Int)
    (bound : Nat) :
    (onGrid numerator denominator exponent).1 / (onGrid numerator denominator exponent).2 <
        bound ↔
      (numerator / denominator : ℚ) < bound * 2 ^ exponent := by
  have unitPos := @onGrid_unit_pos numerator denominator denominatorPos exponent
  have unitPosRat : (0 : ℚ) < (onGrid numerator denominator exponent).2 := by
    exact_mod_cast unitPos
  rw [Nat.div_lt_iff_lt_mul unitPos, ← div_lt_iff₀ (by positivity), ← onGrid_ratio,
    div_lt_iff₀ unitPosRat]
  exact_mod_cast Iff.rfl

/-- On its grid a quotient is below the full precision, and it has the full precision. -/
theorem gridExponent_bounds
    (numeratorPos : 0 < numerator)
    (denominatorPos : 0 < denominator) :
    (numerator / denominator : ℚ) < 2 ^ 53 * 2 ^ gridExponent numerator denominator ∧
      (leastExponent < gridExponent numerator denominator →
        (2 : ℚ) ^ 52 * 2 ^ gridExponent numerator denominator ≤ numerator / denominator) := by
  obtain ⟨low, high⟩ := ratio_bounds numeratorPos denominatorPos
  -- The lengths give the exponent up to one, which the comparison with the precision settles.
  let estimate : Int := (numerator.log2 : Int) - denominator.log2 - precision
  have lowGrid : (2 : ℚ) ^ 52 * 2 ^ estimate ≤ numerator / denominator := by
    refine le_trans (le_of_eq ?_) low.le
    rw [← zpow_natCast, ← zpow_add₀ two_ne_zero]
    congr 1
    simp only [estimate, precision]
    omega
  have highGrid : (numerator / denominator : ℚ) < 2 ^ 54 * 2 ^ estimate := by
    refine lt_of_lt_of_eq high ?_
    rw [← zpow_natCast, ← zpow_add₀ two_ne_zero]
    congr 1
    simp only [estimate, precision]
    omega
  have isBelow :=
    @onGrid_div_lt_iff numerator denominator denominatorPos (max estimate leastExponent)
      (powerOfTwo precision)
  rw [cast_powerOfTwo] at isBelow
  unfold gridExponent
  simp only
  split
  next below =>
    refine ⟨isBelow.mp below, fun finer => ?_⟩
    have isEstimate : max estimate leastExponent = estimate := by
      have : leastExponent < max estimate leastExponent := finer
      omega
    exact isEstimate ▸ lowGrid
  next above =>
    have reached : (2 : ℚ) ^ 53 * 2 ^ max estimate leastExponent ≤ numerator / denominator :=
      not_lt.mp fun below => above (isBelow.mpr below)
    have coarser : (2 : ℚ) ^ estimate ≤ 2 ^ max estimate leastExponent :=
      zpow_le_zpow_right₀ one_le_two (le_max_left _ _)
    rw [zpow_add_one₀ two_ne_zero]
    constructor
    · linarith
    · intro
      linarith

/-- The number in the middle between the greatest finite value and the next one of its grid. -/
def overflowBound : Nat :=
  (powerOfTwo (precision + 1) - 1) * powerOfTwo 970

theorem overflowBound_pos : 0 < overflowBound :=
  Nat.mul_pos (by decide) (powerOfTwo_pos _)

theorem cast_overflowBound :
    (overflowBound : ℚ) = (2 ^ 54 - 1) * 2 ^ (greatestExponent - 1) := by
  have exponent : greatestExponent - 1 = ((970 : Nat) : Int) := by decide
  have ones : ((powerOfTwo (precision + 1) - 1 : Nat) : ℚ) = 2 ^ 54 - 1 := by
    norm_num [powerOfTwo, precision]
  rw [overflowBound, Nat.cast_mul, ones, exponent, zpow_natCast, cast_powerOfTwo]

theorem greatestGrid_eq :
    (2 : ℚ) ^ greatestExponent = 2 ^ (greatestExponent - 1) * 2 := by
  rw [← zpow_add_one₀ two_ne_zero, sub_add_cancel]

/-- On the coarsest grid a quotient is rounded up beyond it just when it reaches the bound. -/
theorem roundedQuotient_onGrid_iff
    (denominatorPos : 0 < denominator)
    (below : (numerator / denominator : ℚ) < 2 ^ 53 * 2 ^ greatestExponent) :
    roundedQuotient (onGrid numerator denominator greatestExponent).1
          (onGrid numerator denominator greatestExponent).2 =
        powerOfTwo precision ↔
      (2 ^ 54 - 1) * 2 ^ (greatestExponent - 1) ≤ (numerator / denominator : ℚ) := by
  have unitPos := @onGrid_unit_pos numerator denominator denominatorPos greatestExponent
  have unitPosRat : (0 : ℚ) < (onGrid numerator denominator greatestExponent).2 := by
    exact_mod_cast unitPos
  have gridPos : (0 : ℚ) < 2 ^ (greatestExponent - 1) := by positivity
  have ratio := @onGrid_ratio numerator denominator greatestExponent
  have isBelow :
      (onGrid numerator denominator greatestExponent).1 /
          (onGrid numerator denominator greatestExponent).2 <
        powerOfTwo precision := by
    rw [onGrid_div_lt_iff denominatorPos, cast_powerOfTwo]
    exact below
  have isOdd : (powerOfTwo precision - 1) % 2 = 1 := by decide
  have middle :=
    roundedQuotient_eq_succ_iff unitPos isOdd (Nat.le_sub_one_of_lt isBelow)
  have ones : ((2 * (powerOfTwo precision - 1) + 1 : Nat) : ℚ) = 2 ^ 54 - 1 := by
    norm_num [powerOfTwo, precision]
  have halves :
      (2 : ℚ) * (numerator / denominator / (2 ^ (greatestExponent - 1) * 2)) =
        numerator / denominator / 2 ^ (greatestExponent - 1) := by
    field_simp
  refine middle.trans ?_
  rw [← @Nat.cast_le ℚ, Nat.cast_mul, Nat.cast_mul, ← le_div_iff₀ unitPosRat, mul_div_assoc,
    ratio, greatestGrid_eq, ones, Nat.cast_two, halves, le_div_iff₀ gridPos]

/-- A quotient has no nearest value just when it reaches the bound. -/
theorem nearest?_eq_none_iff
    (numeratorPos : 0 < numerator)
    (denominatorPos : 0 < denominator) :
    nearest? numerator denominator = none ↔ overflowBound * denominator ≤ numerator := by
  obtain ⟨below, reaches⟩ := gridExponent_bounds numeratorPos denominatorPos
  have positive : (0 : ℚ) < denominator := by exact_mod_cast denominatorPos
  have bound :
      overflowBound * denominator ≤ numerator ↔
        (2 ^ 54 - 1) * 2 ^ (greatestExponent - 1) ≤ (numerator / denominator : ℚ) := by
    rw [le_div_iff₀ positive, ← cast_overflowBound]
    exact_mod_cast Iff.rfl
  have gridPos : (0 : ℚ) < 2 ^ (greatestExponent - 1) := by positivity
  rw [bound, nearest?, if_neg numeratorPos.ne']
  simp only
  generalize gridExponent numerator denominator = exponent at below reaches ⊢
  -- Only on the greatest grid does rounding decide; a finer one ends below the bound even when
  -- a quotient is rounded up to its end, and a coarser one begins above it.
  rcases lt_trichotomy exponent greatestExponent with finer | rfl | coarser
  · have step : (2 : ℚ) ^ exponent * 2 ≤ 2 ^ greatestExponent := by
      rw [← zpow_add_one₀ two_ne_zero]
      exact zpow_le_zpow_right₀ one_le_two finer
    rw [greatestGrid_eq] at step
    refine iff_of_false ?_ (not_le.mpr ?_)
    · split
      · simp [not_lt.mpr (Int.add_one_le_of_lt finer)]
      · simp [not_lt.mpr finer.le]
    · linarith
  · rw [← roundedQuotient_onGrid_iff denominatorPos below]
    split <;> simp_all
  · have step : (2 : ℚ) ^ greatestExponent * 2 ≤ 2 ^ exponent := by
      rw [← zpow_add_one₀ two_ne_zero]
      exact zpow_le_zpow_right₀ one_le_two coarser
    rw [greatestGrid_eq] at step
    have reached := reaches (lt_trans (by decide) coarser)
    refine iff_of_true ?_ ?_
    · split
      · simp [lt_trans coarser (Int.lt_succ exponent)]
      · rfl
    · linarith

end Binary64

end TestAudit
