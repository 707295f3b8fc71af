import IngressControl.Decimal.Numeral
import IngressControl.Proofs.Decimal.Layout
/-!
Finite numbers are kept in one form.

Rounding brings a quotient into the binade in which its mantissa has all bits, as far as the least
exponent allows, and every number that is read from a text is such a rounding.
-/

namespace IngressControl

namespace Binary64

variable {numerator denominator above below : Nat} {exponent : Int}

theorem scaled_div_lt_iff (positive : 0 < denominator)
    (same : scaled numerator denominator exponent = (above, below)) (bits : Nat) :
    above / below < 2 ^ bits ↔ (numerator : ℚ) < denominator * 2 ^ (exponent + bits) := by
  obtain ⟨above', below', same', below_pos, quotient⟩ := exists_scaled numerator exponent positive
  obtain ⟨rfl, rfl⟩ := Prod.mk.inj (same.symm.trans same')
  have unit_pos : (0 : ℚ) < denominator * 2 ^ exponent := by
    have : (0 : ℚ) < denominator := by exact_mod_cast positive
    positivity
  have below_pos' : (0 : ℚ) < below := by exact_mod_cast below_pos
  rw [Nat.div_lt_iff_lt_mul below_pos]
  calc above < 2 ^ bits * below
      ↔ (above : ℚ) < 2 ^ bits * below := by exact_mod_cast Iff.rfl
    _ ↔ (above : ℚ) * (denominator * 2 ^ exponent)
          < 2 ^ bits * below * (denominator * 2 ^ exponent) :=
        (mul_lt_mul_iff_left₀ unit_pos).symm
    _ ↔ (numerator : ℚ) * below < denominator * 2 ^ (exponent + bits) * below := by
        rw [quotient, zpow_add₀ (by norm_num), zpow_natCast]
        ring_nf
    _ ↔ (numerator : ℚ) < denominator * 2 ^ (exponent + bits) := mul_lt_mul_iff_left₀ below_pos'

theorem roundQuotient_bounds (numerator denominator : Nat) :
    numerator / denominator ≤ roundQuotient numerator denominator ∧
      roundQuotient numerator denominator ≤ numerator / denominator + 1 := by
  rw [roundQuotient]
  split
  · omega
  · split <;> omega

/-- The binade of a quotient: the exponent under which it has 53 bits. -/
def binade (numerator denominator : Nat) : Int :=
  let guess : Int := (Nat.log2 numerator : Int) - Nat.log2 denominator - 53
  let (above, below) := scaled numerator denominator guess
  if above / below < Nat.pow 2 53 then guess else guess + 1

theorem binade_bounds (filled : 0 < numerator) (positive : 0 < denominator) :
    (denominator : ℚ) * 2 ^ (binade numerator denominator + 52) ≤ numerator ∧
      (numerator : ℚ) < denominator * 2 ^ (binade numerator denominator + 53) := by
  have numerator_low : (2 : ℚ) ^ (Nat.log2 numerator : Int) ≤ numerator := by
    exact_mod_cast Nat.log2_self_le filled.ne'
  have numerator_high : (numerator : ℚ) < 2 ^ (Nat.log2 numerator + 1 : Int) := by
    exact_mod_cast Nat.lt_log2_self
  have denominator_low : (2 : ℚ) ^ (Nat.log2 denominator : Int) ≤ denominator := by
    exact_mod_cast Nat.log2_self_le positive.ne'
  have denominator_high : (denominator : ℚ) < 2 ^ (Nat.log2 denominator + 1 : Int) := by
    exact_mod_cast Nat.lt_log2_self
  obtain ⟨guess, guess_eq⟩ :
      ∃ guess : Int, (Nat.log2 numerator : Int) - Nat.log2 denominator - 53 = guess := ⟨_, rfl⟩
  have low : (denominator : ℚ) * 2 ^ (guess + 52) ≤ numerator :=
    calc (denominator : ℚ) * 2 ^ (guess + 52)
        ≤ 2 ^ (Nat.log2 denominator + 1 : Int) * 2 ^ (guess + 52) :=
          mul_le_mul_of_nonneg_right denominator_high.le (by positivity)
      _ = 2 ^ (Nat.log2 numerator : Int) := by
          rw [← zpow_add₀ (by norm_num), ← guess_eq]
          congr 1
          ring
      _ ≤ numerator := numerator_low
  have high : (numerator : ℚ) < denominator * 2 ^ (guess + 54) :=
    calc (numerator : ℚ) < 2 ^ (Nat.log2 numerator + 1 : Int) := numerator_high
      _ = 2 ^ (Nat.log2 denominator : Int) * 2 ^ (guess + 54) := by
          rw [← zpow_add₀ (by norm_num), ← guess_eq]
          congr 1
          ring
      _ ≤ denominator * 2 ^ (guess + 54) :=
          mul_le_mul_of_nonneg_right denominator_low (by positivity)
  rw [binade, guess_eq]
  obtain ⟨above, below, same, _⟩ := exists_scaled numerator guess positive
  rw [same]
  dsimp only
  split
  · rename_i short
    exact ⟨low, (scaled_div_lt_iff positive same 53).mp short⟩
  · rename_i long
    rw [add_assoc, add_assoc]
    exact ⟨not_lt.mp fun less => long ((scaled_div_lt_iff positive same 53).mpr less), high⟩

theorem ofQuotient_eq (filled : 0 < numerator) (positive : 0 < denominator) (negative : Bool) :
    ofQuotient negative numerator denominator =
      let exponent := max (binade numerator denominator) leastExponent
      let (above, below) := scaled numerator denominator exponent
      let mantissa := roundQuotient above below
      let (mantissa, exponent) :=
        if mantissa = Nat.pow 2 53 then (Nat.pow 2 52, exponent + 1) else (mantissa, exponent)
      if greatestExponent < exponent then .infinite negative
      else .finite negative mantissa exponent := by
  rw [ofQuotient, if_neg (by omega)]
  rfl

/-- A rounded quotient is in the one form, unless it is too great. -/
theorem proper_ofQuotient (negative : Bool) (numerator denominator : Nat)
    (finite : (ofQuotient negative numerator denominator).isFinite = true) :
    (ofQuotient negative numerator denominator).Proper := by
  by_cases zero : numerator = 0 ∨ denominator = 0
  · rw [ofQuotient, if_pos zero]
    exact ⟨by decide, by decide, by decide, .inr rfl⟩
  · have filled : 0 < numerator := Nat.pos_of_ne_zero fun none => zero (.inl none)
    have positive : 0 < denominator := Nat.pos_of_ne_zero fun none => zero (.inr none)
    obtain ⟨low, high⟩ := binade_bounds filled positive
    rw [ofQuotient_eq filled positive] at finite ⊢
    generalize binade numerator denominator = binade at low high finite ⊢
    obtain ⟨above, below, same, _⟩ := exists_scaled numerator (max binade leastExponent) positive
    dsimp only at finite ⊢
    rw [same] at finite ⊢
    have short : above / below < 2 ^ 53 := by
      refine (scaled_div_lt_iff positive same 53).mpr (high.trans_le ?_)
      exact mul_le_mul_of_nonneg_left (zpow_le_zpow_right₀ (by norm_num) (by simp)) (by positivity)
    have full : leastExponent ≤ binade → 2 ^ 52 ≤ above / below := by
      intro normal
      rw [max_eq_left normal] at same
      exact not_lt.mp fun less => absurd ((scaled_div_lt_iff positive same 52).mp less) low.not_gt
    obtain ⟨under, past⟩ := roundQuotient_bounds above below
    generalize roundQuotient above below = mantissa at under past finite ⊢
    -- Rounding up past the last mantissa gives the first one of the next binade.
    by_cases carries : mantissa = Nat.pow 2 53
    · rw [if_pos carries] at finite ⊢
      dsimp only at finite ⊢
      split at finite
      · cases finite
      · rename_i within
        rw [if_neg within]
        exact ⟨by decide, by omega, not_lt.mp within, .inl (by decide)⟩
    · rw [if_neg carries] at finite ⊢
      dsimp only at finite ⊢
      split at finite
      · cases finite
      · rename_i within
        rw [if_neg within]
        rw [Nat.pow_eq] at carries
        refine ⟨by omega, le_max_right .., not_lt.mp within, ?_⟩
        rcases le_total leastExponent binade with normal | least
        · exact .inl ((full normal).trans under)
        · exact .inr (max_eq_right least)

theorem proper_ofDecimal {negative : Bool} {digits : Nat} {exponent : Int}
    (finite : (ofDecimal negative digits exponent).isFinite = true) :
    (ofDecimal negative digits exponent).Proper := by
  have zero : (Binary64.zero negative).Proper := ⟨by decide, by decide, by decide, .inr rfl⟩
  rw [ofDecimal] at finite ⊢
  split
  · exact zero
  · rename_i filled
    rw [if_neg filled] at finite
    dsimp only at finite ⊢
    split at finite
    · cases finite
    · split at finite
      · rename_i within small
        rw [if_neg within, if_pos small]
        exact zero
      · rename_i within large
        rw [if_neg within, if_neg large]
        split at finite
        · rename_i whole
          rw [if_pos whole]
          exact proper_ofQuotient _ _ _ finite
        · rename_i broken
          rw [if_neg broken]
          exact proper_ofQuotient _ _ _ finite

end Binary64

namespace Numeral

theorem unsignedReal?_eq_some {negative : Bool} {chars : List Char} {value : Binary64}
    (read : unsignedReal? negative chars = some value) :
    ∃ digits exponent, value = Binary64.ofDecimal negative digits exponent := by
  rw [unsignedReal?] at read
  simp only [Option.bind_eq_bind] at read
  split at read
  all_goals
    obtain ⟨exponent, _, read⟩ := Option.bind_eq_some_iff.mp read
    obtain ⟨digits, _, same⟩ := Option.bind_eq_some_iff.mp read
    cases same
    exact ⟨digits, _, rfl⟩

theorem proper_of_real? {chars : List Char} {value : Binary64} (read : real? chars = some value)
    (finite : value.isFinite = true) : value.Proper := by
  rw [real?] at read
  dsimp only at read
  split at read
  iterate 3
    cases read
    cases finite
  obtain ⟨digits, exponent, rfl⟩ := unsignedReal?_eq_some read
  exact Binary64.proper_ofDecimal finite

end Numeral

end IngressControl
