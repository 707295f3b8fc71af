import Mathlib.Algebra.Group.Nat.Defs
import Mathlib.Data.List.TakeWhile
import IngressControl.Instant.Reading
import IngressControl.Instant.Stamp
/-!
Numbers of fixed width: written with zeros in front, and read back.
-/

namespace IngressControl

def lastDigits : Nat → Nat → List Char
  | 0, _ => []
  | width + 1, value => lastDigits width (value / 10) ++ [(value % 10).digitChar]

theorem lastDigits_length (width value : Nat) : (lastDigits width value).length = width := by
  induction width generalizing value with
  | zero => rfl
  | succ width ih => simp [lastDigits, ih]

theorem lastDigits_zero (width : Nat) : lastDigits width 0 = List.replicate width '0' := by
  induction width with
  | zero => rfl
  | succ width ih =>
      rw [lastDigits, Nat.zero_div, ih, List.replicate_succ']
      rfl

theorem replicate_toDigits {width value : Nat} (wide : 0 < width) (fits : value < 10 ^ width) :
    List.replicate (width - (Nat.toDigits 10 value).length) '0' ++ Nat.toDigits 10 value
      = lastDigits width value := by
  induction width generalizing value with
  | zero => contradiction
  | succ width ih =>
      by_cases single : value < 10
      · rw [Nat.toDigits_of_lt_base single, lastDigits, Nat.div_eq_of_lt single,
          Nat.mod_eq_of_lt single, lastDigits_zero]
        rfl
      · have rest : value / 10 < 10 ^ width := by
          rw [Nat.pow_succ] at fits
          omega
        have wide : 0 < width := by
          -- A number of more than one digit does not fit in one place.
          rcases Nat.eq_zero_or_pos width with none | wide
          · subst none
            omega
          · exact wide
        rw [Nat.toDigits_of_base_le (by decide) (Nat.not_lt.mp single), lastDigits, ← ih wide rest,
          List.length_append, List.length_singleton, Nat.add_sub_add_right, List.append_assoc]

theorem toList_padded {width value : Nat} (wide : 0 < width) (fits : value < 10 ^ width) :
    (padded width value).toList = lastDigits width value := by
  rw [← replicate_toDigits wide fits, padded]
  simp [Nat.toString_eq_repr, String.length]

theorem digit?_digitChar {digit : Nat} (below : digit < 10) :
    Numeral.digit? 10 digit.digitChar = some digit := by
  have all : ∀ digit < 10, Numeral.digit? 10 digit.digitChar = some digit := by decide
  exact all digit below

theorem digitsFrom?_append (start : Nat) (first second : List Char) :
    Numeral.digitsFrom? 10 start (first ++ second)
      = (Numeral.digitsFrom? 10 start first).bind fun value =>
        Numeral.digitsFrom? 10 value second := by
  induction first generalizing start with
  | nil => rfl
  | cons char rest ih =>
      simp only [List.cons_append, Numeral.digitsFrom?]
      cases Numeral.digit? 10 char with
      | none => rfl
      | some digit => exact ih _

theorem digitsFrom?_lastDigits (width value : Nat) :
    Numeral.digitsFrom? 10 0 (lastDigits width value) = some (value % 10 ^ width) := by
  induction width generalizing value with
  | zero => simp [lastDigits, Numeral.digitsFrom?, Nat.mod_one]
  | succ width ih =>
      have below : value % 10 < 10 := Nat.mod_lt _ (by decide)
      rw [lastDigits, digitsFrom?_append, ih]
      simp only [Option.bind_some, Numeral.digitsFrom?, digit?_digitChar below, Option.bind_eq_bind]
      rw [Nat.pow_succ', Nat.mod_mul, Nat.mul_comm, Nat.add_comm]

theorem isDigit_of_mem_lastDigits {width value : Nat} {char : Char}
    (member : char ∈ lastDigits width value) : Stamp.isDigit char = true := by
  induction width generalizing value with
  | zero => simp [lastDigits] at member
  | succ width ih =>
      rcases List.mem_append.mp member with front | last
      · exact ih front
      · have below : value % 10 < 10 := Nat.mod_lt _ (by decide)
        rw [List.mem_singleton.mp last, Stamp.isDigit, digit?_digitChar below]
        rfl

namespace Stamp

theorem digits_lastDigits {width value : Nat} (fits : value < 10 ^ width) (rest : List Char) :
    Strict.digits width (lastDigits width value ++ rest) = .ok (value, rest) := by
  have taken : ((lastDigits width value ++ rest).take width).takeWhile isDigit
      = lastDigits width value := by
    rw [List.take_append_of_le_length (Nat.le_of_eq (lastDigits_length ..).symm),
      List.take_of_length_le (Nat.le_of_eq (lastDigits_length ..))]
    exact List.takeWhile_eq_self_iff.mpr fun char member => isDigit_of_mem_lastDigits member
  have read : number width width (lastDigits width value ++ rest) = .ok (value, rest) := by
    rw [number, taken, lastDigits_length, if_neg (Nat.lt_irrefl _), digitsFrom?_lastDigits,
      Nat.mod_eq_of_lt fits, List.drop_left' (lastDigits_length ..)]
    rfl
  rw [Strict.digits, read]

theorem length_le_bytes (chars : List Char) : chars.length ≤ bytes chars := by
  induction chars with
  | nil => exact Nat.zero_le _
  | cons char rest ih =>
      have positive := char.utf8Size_pos
      rw [bytes, String.ofList_cons, String.utf8ByteSize_append, String.utf8ByteSize_singleton]
      rw [bytes] at ih
      rw [List.length_cons]
      omega

end Stamp

end IngressControl
