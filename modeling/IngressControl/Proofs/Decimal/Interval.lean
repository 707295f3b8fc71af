import Mathlib.Algebra.Order.Field.Rat
import Mathlib.Data.Rat.Cast.Order
import Mathlib.Tactic.FieldSimp
import Mathlib.Tactic.Linarith
import Mathlib.Tactic.NormNum
import Mathlib.Tactic.Ring
import IngressControl.Decimal.Shortest
/-!
The search for a decimal number in an interval.

Whatever the search yields lies in the interval, and on a grid that is finer than the interval is
wide it does yield something.
-/

namespace IngressControl

theorem pow_toNat_of_nonneg {base : ℚ} {exponent : Int} (whole : 0 ≤ exponent) :
    base ^ exponent.toNat = base ^ exponent := by
  rw [← zpow_natCast, Int.toNat_of_nonneg whole]

theorem pow_toNat_neg {base : ℚ} {exponent : Int} (broken : ¬ 0 ≤ exponent) :
    base ^ (-exponent).toNat = (base ^ exponent)⁻¹ := by
  rw [← zpow_natCast, Int.toNat_of_nonneg (by omega), zpow_neg]

namespace Decimal

def value (decimal : Decimal) : ℚ := decimal.digits * (10 : ℚ) ^ decimal.exponent

theorem value_trimmed (decimal : Decimal) (fuel : Nat) :
    (decimal.trimmed fuel).value = decimal.value := by
  induction fuel generalizing decimal with
  | zero => rfl
  | succ fuel ih =>
      rw [trimmed]
      split
      · rename_i ends
        have whole : (decimal.digits : ℚ) = (decimal.digits / 10 : ℕ) * 10 := by
          exact_mod_cast (Nat.div_mul_cancel (Nat.dvd_of_mod_eq_zero ends.2)).symm
        rw [ih, value, value, whole, zpow_add_one₀ (by norm_num)]
        ring
      · rfl

namespace Interval

variable {interval : Interval}

/-- The number lies in the interval, an end of which counts when the interval is closed. -/
def Contains (interval : Interval) (number : ℚ) : Prop :=
  if interval.closed then
    (interval.lower : ℚ) ≤ number * interval.denominator ∧
      number * interval.denominator ≤ interval.upper
  else
    (interval.lower : ℚ) < number * interval.denominator ∧
      number * interval.denominator < interval.upper

def refined (interval : Interval) (factor : Nat) : Interval :=
  { interval with
    lower := interval.lower * factor, centre := interval.centre * factor
    upper := interval.upper * factor, denominator := interval.denominator * factor }

theorem exists_grid (exponent : Int) : ∃ up down : Nat,
    (if 0 ≤ exponent then (Nat.pow 10 exponent.toNat, 1) else (1, Nat.pow 10 (-exponent).toNat))
      = (up, down) ∧ 0 < up ∧ 0 < down ∧ (up : ℚ) = 10 ^ exponent * down := by
  by_cases whole : 0 ≤ exponent
  · refine ⟨_, _, if_pos whole, Nat.pow_pos (by decide), by decide, ?_⟩
    rw [Nat.pow_eq]
    push_cast
    rw [pow_toNat_of_nonneg whole, mul_one]
  · refine ⟨_, _, if_neg whole, by decide, Nat.pow_pos (by decide), ?_⟩
    rw [Nat.pow_eq]
    push_cast
    rw [pow_toNat_neg whole]
    field_simp

/-- The test of a grid point, on whole numbers over one denominator, is membership of its value. -/
theorem contains_of_holds {up down count : Nat} {exponent : Int} (positive : 0 < down)
    (grid : (up : ℚ) = 10 ^ exponent * down)
    (held : (interval.refined down).holds (count * (up * interval.denominator)) = true) :
    interval.Contains (value ⟨count, exponent⟩) := by
  have positive : (0 : ℚ) < down := by exact_mod_cast positive
  have point : ((count * (up * interval.denominator) : ℕ) : ℚ)
      = value ⟨count, exponent⟩ * interval.denominator * down := by
    push_cast
    rw [grid, value]
    ring
  rw [holds] at held
  rw [Contains]
  by_cases closed : interval.closed = true
  · rw [if_pos closed]
    rw [if_pos (show (interval.refined down).closed = true from closed), Bool.and_eq_true,
      decide_eq_true_eq, decide_eq_true_eq] at held
    obtain ⟨above, below⟩ := held
    constructor
    · refine le_of_mul_le_mul_right ?_ positive
      rw [← point]
      exact_mod_cast above
    · refine le_of_mul_le_mul_right ?_ positive
      rw [← point]
      exact_mod_cast below
  · rw [if_neg closed]
    rw [if_neg (show ¬ (interval.refined down).closed = true from closed), Bool.and_eq_true,
      decide_eq_true_eq, decide_eq_true_eq] at held
    obtain ⟨above, below⟩ := held
    constructor
    · refine lt_of_mul_lt_mul_right ?_ positive.le
      rw [← point]
      exact_mod_cast above
    · refine lt_of_mul_lt_mul_right ?_ positive.le
      rw [← point]
      exact_mod_cast below

theorem holds_of_between {numerator : Nat} (above : interval.lower < numerator)
    (below : numerator < interval.upper) : interval.holds numerator = true := by
  rw [holds]
  split
  · simp [above.le, below.le]
  · simp [above, below]

theorem pointOn?_cases (interval : Interval) (exponent : Int) : ∃ up down : Nat,
    0 < up ∧ 0 < down ∧ (up : ℚ) = 10 ^ exponent * down ∧
      let step := up * interval.denominator
      let below := (interval.refined down).centre / step
      (∃ count, interval.pointOn? exponent = some ⟨count, exponent⟩ ∧
          (interval.refined down).holds (count * step) = true) ∨
        interval.pointOn? exponent = none ∧
          (interval.refined down).holds (below * step) = false ∧
          (interval.refined down).holds ((below + 1) * step) = false := by
  obtain ⟨up, down, grid, up_pos, down_pos, same⟩ := exists_grid exponent
  refine ⟨up, down, up_pos, down_pos, same, ?_⟩
  intro step below
  obtain ⟨result, found⟩ : ∃ result, interval.pointOn? exponent = result := ⟨_, rfl⟩
  rw [found]
  rw [pointOn?, grid] at found
  dsimp only at found
  -- The tests of the two neighbours, over the common denominator.
  split at found
  · rename_i first second
    split at found
    · exact .inl ⟨_, found.symm, first⟩
    · exact .inl ⟨_, found.symm, second⟩
  · rename_i first _
    exact .inl ⟨_, found.symm, first⟩
  · rename_i _ second
    exact .inl ⟨_, found.symm, second⟩
  · rename_i first second
    exact .inr ⟨found.symm, first, second⟩

theorem contains_of_pointOn? {exponent : Int} {point : Decimal}
    (hit : interval.pointOn? exponent = some point) : interval.Contains point.value := by
  obtain ⟨up, down, _, positive, grid, found | missed⟩ := pointOn?_cases interval exponent
  · obtain ⟨count, found, held⟩ := found
    cases found.symm.trans hit
    exact contains_of_holds positive grid held
  · cases missed.1.symm.trans hit

theorem multiple_between {lower centre upper step : Nat} (low : lower < centre)
    (high : centre < upper) (positive : 0 < step) (fine : step + lower < upper) :
    (lower < centre / step * step ∧ centre / step * step < upper) ∨
      lower < (centre / step + 1) * step ∧ (centre / step + 1) * step < upper := by
  have under : centre / step * step ≤ centre := Nat.div_mul_le_self ..
  have next : (centre / step + 1) * step = centre / step * step + step := Nat.succ_mul ..
  have past : centre < centre / step * step + step := Nat.lt_div_mul_add positive
  omega

/-- On a grid that is finer than the interval is wide there is a point. -/
theorem pointOn?_ne_none {exponent : Int} (low : interval.lower < interval.centre)
    (high : interval.centre < interval.upper) (divided : 0 < interval.denominator)
    (fine : (10 : ℚ) ^ exponent * interval.denominator + interval.lower < interval.upper) :
    interval.pointOn? exponent ≠ none := by
  obtain ⟨up, down, up_pos, positive, grid, found | missed⟩ := pointOn?_cases interval exponent
  · obtain ⟨count, found, _⟩ := found
    rw [found]
    exact Option.some_ne_none _
  · have stepped : up * interval.denominator + (interval.refined down).lower
        < (interval.refined down).upper := by
      have scaled := mul_lt_mul_of_pos_right fine (by exact_mod_cast positive : (0 : ℚ) < down)
      have : ((up * interval.denominator + interval.lower * down : ℕ) : ℚ)
          < (interval.upper * down : ℕ) := by
        push_cast
        rw [grid]
        linarith only [scaled]
      exact_mod_cast this
    have low : (interval.refined down).lower < (interval.refined down).centre :=
      Nat.mul_lt_mul_of_pos_right low positive
    have high : (interval.refined down).centre < (interval.refined down).upper :=
      Nat.mul_lt_mul_of_pos_right high positive
    obtain ⟨_, first, second⟩ := missed
    obtain inside | inside := multiple_between low high (Nat.mul_pos up_pos divided) stepped
    · rw [holds_of_between inside.1 inside.2] at first
      cases first
    · rw [holds_of_between inside.1 inside.2] at second
      cases second

theorem contains_firstPoint {exponent : Int} {fuel depth : Nat} (reached : depth < fuel)
    (hit : interval.pointOn? (exponent - depth) ≠ none) :
    interval.Contains (interval.firstPoint exponent fuel).value := by
  induction fuel generalizing exponent depth with
  | zero => contradiction
  | succ fuel ih =>
      rw [firstPoint]
      split
      · rename_i point found
        exact contains_of_pointOn? found
      · rename_i missed
        cases depth with
        | zero =>
            rw [Int.natCast_zero, Int.sub_zero] at hit
            exact absurd missed hit
        | succ depth =>
            refine ih (Nat.lt_of_succ_lt_succ reached)
              (?_ : interval.pointOn? (_ - (depth : Int)) ≠ none)
            rw [Int.sub_sub, Int.add_comm 1]
            exact_mod_cast hit

end Interval
end Decimal
end IngressControl
