import Mathlib.Algebra.Order.Field.Power
import IngressControl.Proofs.Decimal.Interval
/-!
The fewest digits of a number determine the number.

They lie in its reading interval, and the reading intervals of different numbers have no point in
common.
-/

namespace IngressControl

namespace Binary64

structure Canonical (mantissa : Nat) (exponent : Int) : Prop where
  fits : mantissa < 2 ^ 53
  least : leastExponent ≤ exponent
  greatest : exponent ≤ greatestExponent
  full : 2 ^ 52 ≤ mantissa ∨ exponent = leastExponent

theorem exists_scaled (numerator : Nat) {denominator : Nat} (exponent : Int)
    (positive : 0 < denominator) : ∃ above below : Nat,
      scaled numerator denominator exponent = (above, below) ∧ 0 < below ∧
        (above : ℚ) * (denominator * 2 ^ exponent) = numerator * below := by
  by_cases whole : 0 ≤ exponent
  · refine ⟨_, _, if_pos whole, Nat.mul_pos positive (Nat.pow_pos (by decide)), ?_⟩
    rw [Nat.pow_eq]
    push_cast
    rw [pow_toNat_of_nonneg whole]
  · refine ⟨_, _, if_neg whole, positive, ?_⟩
    rw [Nat.pow_eq]
    push_cast
    rw [pow_toNat_neg whole]
    field_simp

theorem exists_quotient (mantissa : Nat) (exponent : Int) : ∃ above below : Nat,
    scaled mantissa 1 (-exponent) = (above, below) ∧ 0 < below ∧
      (above : ℚ) = mantissa * 2 ^ exponent * below := by
  obtain ⟨above, below, same, positive, value⟩ := exists_scaled mantissa (-exponent) Nat.one_pos
  refine ⟨above, below, same, positive, ?_⟩
  rw [Nat.cast_one, one_mul, zpow_neg] at value
  have filled : (2 : ℚ) ^ exponent ≠ 0 := by positivity
  field_simp at value
  linarith only [value]

end Binary64

namespace Decimal

open Binary64 (Canonical leastExponent greatestExponent)

section Magnitude

theorem pow_le_of_reaches {numerator denominator : Nat} {exponent : Int}
    (reached : reaches numerator denominator exponent = true) :
    (10 : ℚ) ^ exponent * denominator ≤ numerator := by
  rw [reaches, tenths] at reached
  by_cases whole : 0 ≤ exponent
  · rw [if_pos whole, decide_eq_true_eq, Nat.pow_eq] at reached
    rw [← pow_toNat_of_nonneg whole, mul_comm]
    exact_mod_cast reached
  · rw [if_neg whole, decide_eq_true_eq, Nat.pow_eq] at reached
    have reached : (denominator : ℚ) ≤ numerator * ((10 : ℚ) ^ exponent)⁻¹ := by
      rw [← pow_toNat_neg whole]
      exact_mod_cast reached
    have filled : (0 : ℚ) < 10 ^ exponent := by positivity
    calc (10 : ℚ) ^ exponent * denominator
        ≤ 10 ^ exponent * (numerator * (10 ^ exponent)⁻¹) :=
          mul_le_mul_of_nonneg_left reached filled.le
      _ = numerator := by field_simp

/-- Two powers compare as their own powers of one degree do. -/
theorem ten_pow_le_two_pow {high low : Int} {degree : Nat} (positive : degree ≠ 0)
    (powers : (10 : ℚ) ^ (degree * high) ≤ 2 ^ (degree * low)) : (10 : ℚ) ^ high ≤ 2 ^ low := by
  rw [mul_comm _ high, mul_comm _ low, zpow_mul, zpow_mul, zpow_natCast, zpow_natCast] at powers
  exact le_of_pow_le_pow_left₀ positive (by positivity) powers

/-- The guess at the decimal magnitude of `2 ^ exponent` is at most two too high. -/
theorem guess_le {exponent : Int} (least : -1074 ≤ exponent) (greatest : exponent ≤ 1023) :
    (10 : ℚ) ^ (exponent * 30103 / 100000 - 2) ≤ 2 ^ exponent := by
  by_cases whole : 0 ≤ exponent
  · -- Three decimal places are fewer than ten binary ones.
    refine ten_pow_le_two_pow (by decide : (10 : ℕ) ≠ 0) ?_
    calc (10 : ℚ) ^ (((10 : ℕ) : Int) * (exponent * 30103 / 100000 - 2))
        ≤ 10 ^ (3 * exponent) := zpow_le_zpow_right₀ (by norm_num) (by omega)
      _ = (10 ^ (3 : Int)) ^ exponent := zpow_mul ..
      _ ≤ (2 ^ (10 : Int)) ^ exponent := zpow_le_zpow_left₀ whole (by norm_num) (by norm_num)
      _ = 2 ^ (((10 : ℕ) : Int) * exponent) := (zpow_mul ..).symm
  · -- Below one it is the other way round, with 28 against 93 places.
    refine ten_pow_le_two_pow (by decide : (93 : ℕ) ≠ 0) ?_
    calc (10 : ℚ) ^ (((93 : ℕ) : Int) * (exponent * 30103 / 100000 - 2))
        ≤ 10 ^ (28 * exponent) := zpow_le_zpow_right₀ (by norm_num) (by omega)
      _ = (10 ^ (28 : Int)) ^ exponent := zpow_mul ..
      _ ≤ (2 ^ (93 : Int)) ^ exponent := by
          rw [← inv_le_inv₀ (by positivity) (by positivity), ← zpow_neg, ← zpow_neg]
          exact zpow_le_zpow_left₀ (by omega) (by norm_num) (by norm_num)
      _ = 2 ^ (((93 : ℕ) : Int) * exponent) := (zpow_mul ..).symm

theorem ten_pow_magnitude_le {mantissa : Nat} {exponent : Int}
    (canonical : Canonical mantissa exponent) (positive : 0 < mantissa) :
    (10 : ℚ) ^ magnitude mantissa exponent ≤ 10 * (mantissa * 2 ^ exponent) := by
  obtain ⟨above, below, same, below_pos, quotient⟩ :=
    Binary64.exists_quotient mantissa exponent
  have number_pos : (0 : ℚ) < mantissa * 2 ^ exponent := by positivity
  have below_pos : (0 : ℚ) < below := by exact_mod_cast below_pos
  have of_reaches {power : Int} (reached : reaches above below power = true) :
      (10 : ℚ) ^ power ≤ 10 * (mantissa * 2 ^ exponent) := by
    have bound := pow_le_of_reaches reached
    rw [quotient] at bound
    have bound := le_of_mul_le_mul_right bound below_pos
    linarith only [bound, number_pos]
  have lead : (2 : ℚ) ^ ((Nat.log2 mantissa : Int) + exponent) ≤ mantissa * 2 ^ exponent := by
    have log : 2 ^ Nat.log2 mantissa ≤ mantissa := Nat.log2_self_le positive.ne'
    rw [zpow_add₀ (by norm_num), zpow_natCast]
    exact mul_le_mul_of_nonneg_right (by exact_mod_cast log) (by positivity)
  have length : Nat.log2 mantissa < 53 := (Nat.log2_lt positive.ne').mpr canonical.fits
  have least : (-1074 : Int) ≤ exponent := canonical.least
  have greatest : exponent ≤ (971 : Int) := canonical.greatest
  rw [magnitude, same]
  dsimp only
  split
  · rename_i reached
    exact of_reaches reached
  · split
    · rename_i reached
      exact of_reaches reached
    · have guess := (guess_le (by omega) (by omega)).trans lead
      generalize ((Nat.log2 mantissa : Int) + exponent) * 30103 / 100000 = power at guess ⊢
      calc (10 : ℚ) ^ (power - 1) = 10 * 10 ^ (power - 2) := by
            rw [← zpow_one_add₀ (by norm_num)]
            congr 1
            omega
        _ ≤ 10 * (mantissa * 2 ^ exponent) := by linarith only [guess]

end Magnitude

section Reading

namespace Interval

/-- How far a number is from the lower end of its interval, in quarters of its last place. -/
def reach (mantissa : Nat) (exponent : Int) : Nat :=
  if mantissa = Nat.pow 2 52 ∧ leastExponent < exponent then 1 else 2

theorem around_eq (mantissa : Nat) (exponent : Int) : ∃ unit denominator : Nat,
    0 < unit ∧ 0 < denominator ∧ (unit : ℚ) = 2 ^ (exponent - 2) * denominator ∧
      around mantissa exponent =
        { lower := (4 * mantissa - reach mantissa exponent) * unit
          centre := 4 * mantissa * unit
          upper := (4 * mantissa + 2) * unit
          denominator
          closed := mantissa % 2 = 0 } := by
  obtain ⟨unit, denominator, same, positive, quotient⟩ := Binary64.exists_quotient 1 (exponent - 2)
  rw [Nat.cast_one, one_mul] at quotient
  refine ⟨unit, denominator, ?_, positive, quotient, ?_⟩
  · have : (0 : ℚ) < unit := by
      rw [quotient]
      positivity
    exact_mod_cast this
  · rw [around, same]
    rfl

variable {mantissa mantissa' : Nat} {exponent exponent' : Int} {number : ℚ}

theorem between_of_contains (inside : (around mantissa exponent).Contains number) :
    ((4 * mantissa - reach mantissa exponent : ℕ) : ℚ) * 2 ^ (exponent - 2) ≤ number ∧
      number ≤ (4 * mantissa + 2 : ℕ) * 2 ^ (exponent - 2) ∧
      (mantissa % 2 = 1 →
        ((4 * mantissa - reach mantissa exponent : ℕ) : ℚ) * 2 ^ (exponent - 2) < number ∧
          number < (4 * mantissa + 2 : ℕ) * 2 ^ (exponent - 2)) := by
  obtain ⟨unit, denominator, _, positive, unit_eq, same⟩ := around_eq mantissa exponent
  have positive : (0 : ℚ) < denominator := by exact_mod_cast positive
  rw [same, Contains] at inside
  simp only [Nat.cast_mul _ unit, unit_eq, ← mul_assoc, mul_le_mul_iff_left₀ positive,
    mul_lt_mul_iff_left₀ positive] at inside
  by_cases even : mantissa % 2 = 0
  · rw [if_pos (decide_eq_true even)] at inside
    exact ⟨inside.1, inside.2, fun odd => by omega⟩
  · rw [if_neg (by simp [even])] at inside
    exact ⟨inside.1.le, inside.2.le, fun _ => inside⟩

/-- Intervals with a common point, the places of the one at least `scale` times those of the other:
the upper end of the one is not below the lower end of the other, nor at it if an end is open. -/
theorem ends_cross {scale : Nat} (inside : (around mantissa exponent).Contains number)
    (inside' : (around mantissa' exponent').Contains number)
    (coarser : (scale : ℚ) * 2 ^ (exponent - 2) ≤ 2 ^ (exponent' - 2)) :
    (4 * mantissa' - reach mantissa' exponent') * scale ≤ 4 * mantissa + 2 ∧
      (mantissa % 2 = 1 ∨ mantissa' % 2 = 1 →
        (4 * mantissa' - reach mantissa' exponent') * scale < 4 * mantissa + 2) := by
  obtain ⟨_, under, odd⟩ := between_of_contains inside
  obtain ⟨above, _, odd'⟩ := between_of_contains inside'
  generalize 4 * mantissa' - reach mantissa' exponent' = bottom at above odd' ⊢
  have unit_pos : (0 : ℚ) < 2 ^ (exponent - 2) := by positivity
  have start : ((bottom * scale : ℕ) : ℚ) * 2 ^ (exponent - 2) ≤ bottom * 2 ^ (exponent' - 2) := by
    push_cast
    rw [mul_assoc]
    exact mul_le_mul_of_nonneg_left coarser (Nat.cast_nonneg _)
  constructor
  · have := le_of_mul_le_mul_right ((start.trans above).trans under) unit_pos
    exact_mod_cast this
  · intro opened
    have strict : ((bottom * scale : ℕ) : ℚ) * 2 ^ (exponent - 2)
        < (4 * mantissa + 2 : ℕ) * 2 ^ (exponent - 2) := by
      rcases opened with opened | opened
      · exact (start.trans above).trans_lt (odd opened).2
      · exact (start.trans_lt (odd' opened).1).trans_le under
    exact_mod_cast lt_of_mul_lt_mul_right strict unit_pos.le

theorem disjoint (canonical : Canonical mantissa exponent)
    (canonical' : Canonical mantissa' exponent')
    (before : exponent < exponent' ∨ exponent = exponent' ∧ mantissa < mantissa')
    (inside : (around mantissa exponent).Contains number) :
    ¬ (around mantissa' exponent').Contains number := by
  intro inside'
  have fits := canonical.fits
  rcases before with smaller | ⟨rfl, smaller⟩
  · have coarser : ((2 : ℕ) : ℚ) * 2 ^ (exponent - 2) ≤ 2 ^ (exponent' - 2) := by
      rw [Nat.cast_ofNat, ← zpow_one_add₀ (by norm_num)]
      exact zpow_le_zpow_right₀ (by norm_num) (by omega)
    have grown : leastExponent < exponent' := canonical.least.trans_lt smaller
    have full : 2 ^ 52 ≤ mantissa' := canonical'.full.resolve_right grown.ne'
    obtain ⟨meets, odd⟩ := ends_cross inside inside' coarser
    -- Only the greatest mantissa reaches the next power of two, and it is odd.
    rw [reach, Nat.pow_eq] at meets odd
    by_cases narrow : mantissa' = 2 ^ 52
    · rw [if_pos ⟨narrow, grown⟩] at meets odd
      omega
    · rw [if_neg (fun both => narrow both.1)] at meets
      omega
  · have coarser : ((1 : ℕ) : ℚ) * 2 ^ (exponent - 2) ≤ 2 ^ (exponent - 2) := by
      rw [Nat.cast_one, one_mul]
    obtain ⟨meets, odd⟩ := ends_cross inside inside' coarser
    -- Only neighbours meet, and one of them is odd.
    have near : reach mantissa' exponent ≤ 2 := by
      rw [reach]
      split <;> decide
    omega

/-- A point in the reading intervals of two numbers makes them one number. -/
theorem around_unique (canonical : Canonical mantissa exponent)
    (canonical' : Canonical mantissa' exponent')
    (inside : (around mantissa exponent).Contains number)
    (inside' : (around mantissa' exponent').Contains number) :
    mantissa = mantissa' ∧ exponent = exponent' := by
  rcases lt_trichotomy exponent exponent' with before | rfl | after
  · exact absurd inside' (disjoint canonical canonical' (.inl before) inside)
  · rcases lt_trichotomy mantissa mantissa' with before | rfl | after
    · exact absurd inside' (disjoint canonical canonical' (.inr ⟨rfl, before⟩) inside)
    · exact ⟨rfl, rfl⟩
    · exact absurd inside (disjoint canonical' canonical (.inr ⟨rfl, after⟩) inside')
  · exact absurd inside (disjoint canonical' canonical (.inl after) inside')

/-- Seventeen digits below the magnitude, the grid is finer than the interval is wide. -/
theorem grid_fine (canonical : Canonical mantissa exponent) (positive : 0 < mantissa) :
    (10 : ℚ) ^ (magnitude mantissa exponent - 17)
      < (reach mantissa exponent + 2) * 2 ^ (exponent - 2) := by
  have size := ten_pow_magnitude_le canonical positive
  have unit_pos : (0 : ℚ) < 2 ^ (exponent - 2) := by positivity
  have places : (2 : ℚ) ^ exponent = 4 * 2 ^ (exponent - 2) := by
    rw [zpow_sub₀ (by norm_num)]
    ring
  have bound : (4 * mantissa : ℚ) < (reach mantissa exponent + 2) * 10 ^ 16 := by
    have fits := canonical.fits
    have : 4 * mantissa < (reach mantissa exponent + 2) * 10 ^ 16 := by
      rw [reach, Nat.pow_eq]
      split <;> omega
    exact_mod_cast this
  rw [places] at size
  rw [zpow_sub₀ (by norm_num), div_lt_iff₀ (by positivity)]
  norm_num at bound ⊢
  nlinarith only [size, bound, unit_pos]

end Interval

open Decimal.Interval

theorem contains_shortest {mantissa : Nat} {exponent : Int}
    (canonical : Canonical mantissa exponent) :
    (around mantissa exponent).Contains (shortest mantissa exponent).value := by
  obtain ⟨unit, denominator, unit_pos, positive, unit_eq, same⟩ := around_eq mantissa exponent
  rw [shortest]
  split
  · rename_i none
    subst none
    rw [same, Contains, value]
    simp
  · rename_i filled
    have mantissa_pos : 0 < mantissa := Nat.pos_of_ne_zero filled
    rw [value_trimmed]
    refine contains_firstPoint (by decide : 17 < 18) (pointOn?_ne_none ?_ ?_ ?_ ?_)
    all_goals rw [same]
    · exact Nat.mul_lt_mul_of_pos_right (by rw [reach]; split <;> omega) unit_pos
    · exact Nat.mul_lt_mul_of_pos_right (by omega) unit_pos
    · exact positive
    · have fine := mul_lt_mul_of_pos_right (grid_fine canonical mantissa_pos)
        (by exact_mod_cast positive : (0 : ℚ) < denominator)
      have low : reach mantissa exponent ≤ 4 * mantissa := by
        rw [reach]
        split <;> omega
      rw [mul_assoc, ← unit_eq] at fine
      push_cast [Nat.cast_sub low] at fine ⊢
      linarith only [fine]

/-- Different numbers have different fewest digits. -/
theorem shortest_injective {mantissa mantissa' : Nat} {exponent exponent' : Int}
    (canonical : Canonical mantissa exponent) (canonical' : Canonical mantissa' exponent')
    (same : (shortest mantissa exponent).value = (shortest mantissa' exponent').value) :
    mantissa = mantissa' ∧ exponent = exponent' := by
  have inside := contains_shortest canonical
  rw [same] at inside
  exact around_unique canonical canonical' inside (contains_shortest canonical')

end Reading
end Decimal
end IngressControl
