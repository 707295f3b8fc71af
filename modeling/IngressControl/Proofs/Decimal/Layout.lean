import IngressControl.Proofs.Decimal.Shortest
/-!
The text of a number names it.

A text in either layout has a whole part, and a fraction or a power of ten or both. The parts can be
told apart, so that the text determines them and with them the value.
-/

namespace IngressControl

namespace Text

/-- What follows a run of characters does not prolong it. -/
def Ends (like : Char → Bool) (rest : List Char) : Prop := ∀ char ∈ rest.head?, like char = false

theorem ends_nil (like : Char → Bool) : Ends like [] := by simp [Ends]

theorem ends_cons {like : Char → Bool} {char : Char} {rest : List Char} :
    Ends like (char :: rest) ↔ like char = false := by simp [Ends]

theorem run_inj {like : Char → Bool} {run run' rest rest' : List Char}
    (all : ∀ char ∈ run, like char = true) (all' : ∀ char ∈ run', like char = true)
    (ends : Ends like rest) (ends' : Ends like rest') (same : run ++ rest = run' ++ rest') :
    run = run' ∧ rest = rest' := by
  induction run generalizing run' with
  | nil =>
      cases run' with
      | nil => exact ⟨rfl, same⟩
      | cons char run' =>
          rw [List.nil_append, List.cons_append] at same
          rw [same, ends_cons, all' char (.head _)] at ends
          cases ends
  | cons char run ih =>
      cases run' with
      | nil =>
          rw [List.nil_append, List.cons_append] at same
          rw [← same, ends_cons, all char (.head _)] at ends'
          cases ends'
      | cons char' run' =>
          obtain ⟨rfl, tails⟩ := List.cons.inj same
          obtain ⟨rfl, rests⟩ := ih (fun other member => all other (.tail _ member))
            (fun other member => all' other (.tail _ member)) tails
          exact ⟨rfl, rests⟩

end Text

namespace Decimal

def isMark (char : Char) : Bool :=
  char.isDigit || char = '.' || char = 'e' || char = '+' || char = '-'

theorem isMark_of_isDigit {char : Char} (digit : char.isDigit = true) : isMark char = true := by
  simp [isMark, digit]

/-- The parts of a number's text without its sign: digits, digits behind a point, and a power of
ten with its sign. -/
structure Spelling where
  whole : List Char
  fraction : Option (List Char)
  power : Option (Bool × List Char)

namespace Spelling

def fractionChars : Option (List Char) → List Char
  | none => []
  | some digits => '.' :: digits

def powerChars : Option (Bool × List Char) → List Char
  | none => []
  | some (negative, digits) => 'e' :: (if negative then '-' else '+') :: digits

def chars (spelling : Spelling) : List Char :=
  spelling.whole ++ (fractionChars spelling.fraction ++ powerChars spelling.power)

def natural (digits : List Char) : Nat := Nat.ofDigitChars 10 digits 0

def powerValue : Option (Bool × List Char) → Int
  | none => 0
  | some (negative, digits) => if negative then -(natural digits : Int) else natural digits

def value (spelling : Spelling) : ℚ :=
  let fraction := spelling.fraction.getD []
  natural (spelling.whole ++ fraction) * 10 ^ (powerValue spelling.power - fraction.length)

structure Sound (spelling : Spelling) : Prop where
  whole : ∀ char ∈ spelling.whole, char.isDigit = true
  filled : spelling.whole ≠ []
  fraction : ∀ digits ∈ spelling.fraction, ∀ char ∈ digits, char.isDigit = true
  power : ∀ power ∈ spelling.power, ∀ char ∈ power.2, char.isDigit = true
  marked : spelling.fraction.isSome = true ∨ spelling.power.isSome = true

theorem ends_powerChars (power : Option (Bool × List Char)) :
    Text.Ends Char.isDigit (powerChars power) := by
  cases power with
  | none => exact Text.ends_nil _
  | some power => exact Text.ends_cons.mpr rfl

theorem ends_fractionChars (fraction : Option (List Char)) (power : Option (Bool × List Char)) :
    Text.Ends Char.isDigit (fractionChars fraction ++ powerChars power) := by
  cases fraction with
  | none => exact ends_powerChars power
  | some digits => exact Text.ends_cons.mpr rfl

theorem powerChars_inj {first second : Option (Bool × List Char)}
    (same : powerChars first = powerChars second) : first = second := by
  rcases first with _ | ⟨negative, digits⟩ <;> rcases second with _ | ⟨negative', digits'⟩
  · rfl
  · cases same
  · cases same
  · obtain ⟨sign, rfl⟩ := List.cons.inj (List.cons.inj same).2
    cases negative <;> cases negative' <;> first | rfl | cases sign

/-- The parts of a sound spelling can be read off its text. -/
theorem chars_inj {first second : Spelling} (sound : first.Sound) (sound' : second.Sound)
    (same : first.chars = second.chars) : first = second := by
  obtain ⟨wholes, tails⟩ := Text.run_inj sound.whole sound'.whole
    (ends_fractionChars _ _) (ends_fractionChars _ _) same
  rcases first with ⟨whole, _ | digits, power⟩ <;> rcases second with ⟨whole', _ | digits', power'⟩
  · have powers : power = power' := powerChars_inj tails
    rw [show whole = whole' from wholes, powers]
  · rcases power with _ | _ <;> cases tails
  · rcases power' with _ | _ <;> cases tails
  · obtain ⟨fractions, powers⟩ := Text.run_inj (sound.fraction digits rfl)
      (sound'.fraction digits' rfl) (ends_powerChars power) (ends_powerChars power')
      (List.cons.inj tails).2
    rw [show whole = whole' from wholes, fractions, powerChars_inj powers]

theorem Sound.all_marks {spelling : Spelling} (sound : spelling.Sound) :
    ∀ char ∈ spelling.chars, isMark char = true := by
  intro char member
  simp only [chars, List.mem_append] at member
  rcases member with member | member | member
  · exact isMark_of_isDigit (sound.whole char member)
  · rcases fraction : spelling.fraction with _ | digits
    · simp [fraction, fractionChars] at member
    · rw [fraction, fractionChars] at member
      rcases List.mem_cons.mp member with rfl | member
      · rfl
      · exact isMark_of_isDigit (sound.fraction digits fraction char member)
  · rcases power : spelling.power with _ | ⟨negative, digits⟩
    · simp [power, powerChars] at member
    · rw [power, powerChars] at member
      rcases List.mem_cons.mp member with rfl | member
      · rfl
      · rcases List.mem_cons.mp member with rfl | member
        · cases negative <;> rfl
        · exact isMark_of_isDigit (sound.power _ power char member)

theorem Sound.exists_mark {spelling : Spelling} (sound : spelling.Sound) :
    '.' ∈ spelling.chars ∨ 'e' ∈ spelling.chars := by
  rcases sound.marked with fraction | power
  · obtain ⟨digits, fraction⟩ := Option.isSome_iff_exists.mp fraction
    exact .inl (by simp [chars, fraction, fractionChars])
  · obtain ⟨⟨negative, digits⟩, power⟩ := Option.isSome_iff_exists.mp power
    exact .inr (by simp [chars, power, powerChars])

theorem Sound.exists_digit {spelling : Spelling} (sound : spelling.Sound) :
    ∃ digit rest, spelling.chars = digit :: rest ∧ digit.isDigit = true := by
  obtain ⟨digit, rest, same⟩ := List.exists_cons_of_ne_nil sound.filled
  exact ⟨digit, rest ++ (fractionChars spelling.fraction ++ powerChars spelling.power),
    by rw [chars, same, List.cons_append], sound.whole digit (same ▸ .head _)⟩

end Spelling

def Spells (text : String) (number : ℚ) : Prop :=
  ∃ spelling : Spelling, spelling.Sound ∧ text.toList = spelling.chars ∧ spelling.value = number

theorem spells_unique {text : String} {first second : ℚ} (spells : Spells text first)
    (spells' : Spells text second) : first = second := by
  obtain ⟨spelling, sound, same, rfl⟩ := spells
  obtain ⟨spelling', sound', same', rfl⟩ := spells'
  rw [Spelling.chars_inj sound sound' (same.symm.trans same')]

section Layout

variable {number : Nat} {exponent : Int} {digits : String} {lead : Int}

theorem toList_zeros (count : Nat) : (zeros count).toList = List.replicate count '0' := by
  rw [zeros, String.toList_ofList]

theorem toList_toString (number : Nat) : (toString number).toList = Nat.toDigits 10 number := by
  rw [Nat.toString_eq_repr, Nat.repr_eq_ofList_toDigits, String.toList_ofList]

theorem length_toString_pos (number : Nat) : 0 < (toString number).length := by
  rw [← String.length_toList, toList_toString]
  exact Nat.length_toDigits_pos

theorem isDigit_toString (number : Nat) :
    ∀ char ∈ (toString number).toList, char.isDigit = true := by
  rw [toList_toString]
  exact fun _ member => Nat.isDigit_of_mem_toDigits (by decide) (by decide) member

theorem natural_toString (number : Nat) :
    Spelling.natural (toString number).toList = number := by
  rw [toList_toString]
  exact Nat.ofDigitChars_ten_toDigits

def powerOf (power : Int) : Bool × List Char := (power < 0, (toString power.natAbs).toList)

theorem powerChars_powerOf (power : Int) : Spelling.powerChars (some (powerOf power))
    = 'e' :: ((if power < 0 then "-" else "+") ++ toString power.natAbs).toList := by
  rw [String.toList_append]
  by_cases below : power < 0
  · simp [powerOf, Spelling.powerChars, below]
  · simp [powerOf, Spelling.powerChars, below]

theorem powerValue_powerOf (power : Int) :
    Spelling.powerValue (some (powerOf power)) = power := by
  rw [powerOf, Spelling.powerValue, natural_toString]
  by_cases below : power < 0
  · rw [if_pos (decide_eq_true below)]
    omega
  · rw [if_neg (by simpa using below)]
    omega

theorem isDigit_zeros {count : Nat} : ∀ char ∈ List.replicate count '0', char.isDigit = true :=
  fun _ member => List.eq_of_mem_replicate member ▸ rfl

variable {number : Nat} {exponent : Int}

theorem natural_zeros_append (count : Nat) (digits : List Char) :
    Spelling.natural (List.replicate count '0' ++ digits) = Spelling.natural digits := by
  rw [Spelling.natural, Spelling.natural, Nat.ofDigitChars_append, Nat.ofDigitChars_replicate_zero,
    Nat.mul_zero]

theorem natural_append_zeros (count : Nat) (digits : List Char) :
    Spelling.natural (digits ++ List.replicate count '0') = 10 ^ count * Spelling.natural digits := by
  rw [Spelling.natural, Spelling.natural, Nat.ofDigitChars_append, Nat.ofDigitChars_replicate_zero]

theorem toList_pointed_small (small : lead ≤ 0) : (pointed digits lead).toList
    = ['0'] ++ '.' :: (List.replicate (-lead).toNat '0' ++ digits.toList) := by
  simp [pointed, small, toList_zeros]

theorem toList_pointed_large (large : 0 < lead) (whole : digits.length ≤ lead) :
    (pointed digits lead).toList
      = digits.toList ++ List.replicate (lead - digits.length).toNat '0' := by
  simp [pointed, not_le.mpr large, whole, toList_zeros]

theorem toList_pointed_between (large : 0 < lead) (broken : lead < digits.length) :
    (pointed digits lead).toList
      = digits.toList.take lead.toNat ++ '.' :: digits.toList.drop lead.toNat := by
  simp [pointed, not_le.mpr large, not_le.mpr broken]

theorem spells_pointed {text : String} (whole fraction : List Char)
    (power : Option (Bool × List Char)) (filled : whole ≠ [])
    (all : ∀ char ∈ whole ++ fraction, char.isDigit = true)
    (powers : ∀ pair ∈ power, ∀ char ∈ pair.2, char.isDigit = true)
    (same : text.toList = whole ++ '.' :: fraction ++ Spelling.powerChars power)
    (digits : Spelling.natural (whole ++ fraction) = number)
    (place : Spelling.powerValue power - fraction.length = exponent) :
    Spells text (value ⟨number, exponent⟩) := by
  refine ⟨⟨whole, some fraction, power⟩, ⟨fun char member => ?_, filled, ?_, powers, .inl rfl⟩,
    by simpa [Spelling.chars, Spelling.fractionChars] using same, ?_⟩
  · exact all char (List.mem_append_left _ member)
  · rintro _ ⟨⟩ char member
    exact all char (List.mem_append_right _ member)
  · rw [← digits, ← place]
    rfl

theorem value_shift (count digits : Nat) (exponent : Int) :
    value ⟨10 ^ count * digits, exponent⟩ = value ⟨digits, exponent + count⟩ := by
  rw [value, value, zpow_add₀ (by norm_num), zpow_natCast]
  push_cast
  ring

/-- Positional layout: zeros fill the places between the digits and the point, on either side. -/
theorem spells_positional (lead_eq : lead = (toString number).length + exponent) :
    Spells (if ((toString number).length : Int) ≤ lead then pointed (toString number) lead ++ ".0"
      else pointed (toString number) lead) (value ⟨number, exponent⟩) := by
  have filled := length_toString_pos number
  have all := isDigit_toString number
  have natural := natural_toString number
  generalize toString number = digits at *
  have length : digits.toList.length = digits.length := String.length_toList
  have all_zeros (count : Nat) : ∀ char ∈ List.replicate count '0', char.isDigit = true :=
    isDigit_zeros
  by_cases small : lead ≤ 0
  · rw [if_neg (by omega)]
    refine spells_pointed ['0'] (List.replicate (-lead).toNat '0' ++ digits.toList) none (by simp)
      ?_ (by simp) ((toList_pointed_small small).trans (List.append_nil _).symm) ?_ ?_
    · intro char member
      rcases List.mem_append.mp member with member | member
      · exact List.mem_singleton.mp member ▸ rfl
      · exact (List.mem_append.mp member).elim (all_zeros _ char) (all char)
    · rw [List.singleton_append, ← List.cons_append, ← List.replicate_succ, natural_zeros_append,
        natural]
    · rw [Spelling.powerValue, List.length_append, List.length_replicate, length]
      omega
  · have large : 0 < lead := not_le.mp small
    by_cases whole : (digits.length : Int) ≤ lead
    · -- The zeros are digits of a greater number at a lower place.
      obtain ⟨count, count_eq⟩ : ∃ count : Nat, (lead - digits.length).toNat = count := ⟨_, rfl⟩
      have place : exponent = -1 + (count + 1 : ℕ) := by
        push_cast
        omega
      rw [if_pos whole, place, ← value_shift]
      refine spells_pointed (digits.toList ++ List.replicate count '0') ['0'] none ?_ ?_ (by simp)
        ?_ ?_ (by simp [Spelling.powerValue])
      · rw [← List.length_pos_iff, List.length_append, length]
        omega
      · intro char member
        rw [List.append_assoc, ← List.replicate_succ'] at member
        exact (List.mem_append.mp member).elim (all char) (all_zeros _ char)
      · rw [String.toList_append, toList_pointed_large large whole, count_eq]
        simp [Spelling.powerChars]
      · rw [List.append_assoc, ← List.replicate_succ', natural_append_zeros, natural]
    · rw [if_neg whole]
      refine spells_pointed (digits.toList.take lead.toNat) (digits.toList.drop lead.toNat) none ?_
        ?_ (by simp) ((toList_pointed_between large (not_le.mp whole)).trans
          (List.append_nil _).symm) ?_ ?_
      · rw [← List.length_pos_iff, List.length_take, length]
        omega
      · rwa [List.take_append_drop]
      · rw [List.take_append_drop, natural]
      · rw [Spelling.powerValue, List.length_drop, length]
        omega

theorem spells_scientific (lead_eq : lead = (toString number).length + exponent) :
    Spells ((if (toString number).length = 1 then toString number else pointed (toString number) 1)
        ++ "e" ++ (if lead - 1 < 0 then "-" else "+") ++ toString (lead - 1).natAbs)
      (value ⟨number, exponent⟩) := by
  have filled := length_toString_pos number
  have all := isDigit_toString number
  have natural := natural_toString number
  generalize toString number = digits at *
  have length : digits.toList.length = digits.length := String.length_toList
  have powers : ∀ power ∈ some (powerOf (lead - 1)), ∀ char ∈ power.2, char.isDigit = true := by
    rintro _ ⟨⟩
    exact isDigit_toString _
  by_cases single : digits.length = 1
  · rw [if_pos single]
    have place : exponent = lead - 1 := by omega
    refine ⟨⟨digits.toList, none, some (powerOf (lead - 1))⟩, ⟨all, ?_, by simp, powers, .inr rfl⟩,
      ?_, ?_⟩
    · rw [← List.length_pos_iff, length]
      exact filled
    · rw [Spelling.chars, powerChars_powerOf]
      simp [Spelling.fractionChars]
    · rw [Spelling.value, powerValue_powerOf, value, Option.getD_none, List.append_nil, natural, place]
      simp
  · rw [if_neg single]
    refine spells_pointed (digits.toList.take 1) (digits.toList.drop 1) (some (powerOf (lead - 1)))
      ?_ ?_ powers ?_ ?_ ?_
    · rw [← List.length_pos_iff, List.length_take, length]
      omega
    · rwa [List.take_append_drop]
    · have pointed : (pointed digits 1).toList = digits.toList.take 1 ++ '.' :: digits.toList.drop 1 :=
        toList_pointed_between (by decide) (by omega)
      rw [powerChars_powerOf]
      simp [pointed]
    · rw [List.take_append_drop, natural]
    · rw [powerValue_powerOf, List.length_drop, length]
      omega

theorem spells_jsonText (decimal : Decimal) : Spells decimal.jsonText decimal.value := by
  rw [jsonText]
  split
  · rename_i zero
    refine ⟨⟨['0'], some ['0'], none⟩, ⟨by simp, by simp, by simp, by simp, .inl rfl⟩, rfl, ?_⟩
    rw [value, zero]
    simp [Spelling.value, show Spelling.natural ['0', '0'] = 0 from rfl]
  · split
    · exact spells_positional rfl
    · exact spells_scientific rfl

end Layout

end Decimal

namespace Binary64

def Proper : Binary64 → Prop
  | .finite _ mantissa exponent => Canonical mantissa exponent
  | _ => False

theorem toList_jsonText (negative : Bool) (mantissa : Nat) (exponent : Int) :
    (jsonText (.finite negative mantissa exponent)).toList
      = (if negative then ['-'] else []) ++ (Decimal.shortest mantissa exponent).jsonText.toList := by
  cases negative <;> simp [jsonText, signText]

/-- A number is written with marks of numbers only, one of them a point or the mark of a power, and
starts with its sign or a digit. -/
theorem Proper.marks {number : Binary64} (proper : number.Proper) :
    (∀ char ∈ number.jsonText.toList, Decimal.isMark char = true) ∧
      ('.' ∈ number.jsonText.toList ∨ 'e' ∈ number.jsonText.toList) ∧
      ∃ char rest, number.jsonText.toList = char :: rest ∧ (char = '-' ∨ char.isDigit = true) := by
  rcases number with _ | _ | ⟨negative, mantissa, exponent⟩
  · cases proper
  · cases proper
  · obtain ⟨spelling, sound, same, _⟩ := Decimal.spells_jsonText (Decimal.shortest mantissa exponent)
    rw [toList_jsonText, same]
    refine ⟨fun char member => ?_, sound.exists_mark.imp (List.mem_append_right _)
      (List.mem_append_right _), ?_⟩
    · rcases List.mem_append.mp member with member | member
      · cases negative with
        | false => cases member
        | true => exact List.mem_singleton.mp member ▸ rfl
      · exact sound.all_marks char member
    · cases negative with
      | false =>
          obtain ⟨digit, rest, same, isDigit⟩ := sound.exists_digit
          exact ⟨digit, rest, same, .inr isDigit⟩
      | true => exact ⟨'-', spelling.chars, rfl, .inl rfl⟩

/-- The text of a finite number names it, its sign included. -/
theorem jsonText_injective {first second : Binary64} (proper : first.Proper)
    (proper' : second.Proper) (same : first.jsonText = second.jsonText) : first = second := by
  rcases first with _ | _ | ⟨negative, mantissa, exponent⟩
  · cases proper
  · cases proper
  rcases second with _ | _ | ⟨negative', mantissa', exponent'⟩
  · cases proper'
  · cases proper'
  have chars := congrArg String.toList same
  rw [toList_jsonText, toList_jsonText] at chars
  -- What is left without the sign starts with a digit.
  have unsigned (decimal : Decimal) (rest : List Char) : decimal.jsonText.toList ≠ '-' :: rest := by
    obtain ⟨spelling, sound, same, _⟩ := Decimal.spells_jsonText decimal
    obtain ⟨digit, rest, starts, isDigit⟩ := sound.exists_digit
    rw [same, starts]
    rintro ⟨⟩
    cases isDigit
  have texts : (Decimal.shortest mantissa exponent).jsonText
      = (Decimal.shortest mantissa' exponent').jsonText ∧ negative = negative' := by
    cases negative <;> cases negative'
    · exact ⟨String.toList_inj.mp chars, rfl⟩
    · exact absurd chars (unsigned _ _)
    · exact absurd chars.symm (unsigned _ _)
    · exact ⟨String.toList_inj.mp (List.cons.inj chars).2, rfl⟩
  obtain ⟨texts, rfl⟩ := texts
  have values := Decimal.spells_jsonText (Decimal.shortest mantissa exponent)
  rw [texts] at values
  obtain ⟨rfl, rfl⟩ := Decimal.shortest_injective proper proper'
    (Decimal.spells_unique values (Decimal.spells_jsonText _))
  rfl

end Binary64

end IngressControl
