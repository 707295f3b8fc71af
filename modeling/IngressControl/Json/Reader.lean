import IngressControl.Json.Basic
import IngressControl.Decimal.Numeral
/-!
Reading JSON texts.

Numbers without a point or an exponent are integers as far as eight bytes hold them. All others
keep the digits that fit eight bytes, drop the rest, and are scaled by powers of ten with a
rounding at each step; one that leaves the range becomes infinite.
-/

namespace IngressControl.Json

inductive Piece where
  | char (value : Char)
  | unit (value : Nat)

def isGap (char : Char) : Bool := char = ' ' || char = '\n' || char = '\r' || char = '\t'

def skipGap (chars : List Char) : List Char := chars.dropWhile isGap

def pieces? : List Char → Option (List Piece × List Char)
  | [] => none
  | '"' :: chars => some ([], chars)
  | '\\' :: 'u' :: a :: b :: c :: d :: chars => do
      let unit ← Numeral.digits? 16 [a, b, c, d]
      let (pieces, rest) ← pieces? chars
      return (.unit unit :: pieces, rest)
  | '\\' :: mark :: chars => do
      let char ← match mark with
        | '"' => some '"'
        | '\\' => some '\\'
        | '/' => some '/'
        | 'b' => some '\x08'
        | 'f' => some '\x0c'
        | 'n' => some '\n'
        | 'r' => some '\r'
        | 't' => some '\t'
        | _ => none
      let (pieces, rest) ← pieces? chars
      return (.char char :: pieces, rest)
  | char :: chars =>
      if char = '\\' ∨ char.toNat < 0x20 then none
      else do
        let (pieces, rest) ← pieces? chars
        return (.char char :: pieces, rest)

def isHigh (unit : Nat) : Bool := 0xD800 ≤ unit && unit ≤ 0xDBFF
def isLow (unit : Nat) : Bool := 0xDC00 ≤ unit && unit ≤ 0xDFFF

/-- The characters that pieces spell. A surrogate only counts in a pair. -/
def joined? : List Piece → Option (List Char)
  | [] => some []
  | .char char :: pieces => (joined? pieces).map (char :: ·)
  | .unit high :: .unit low :: pieces =>
      -- Two units above the basic plane share twenty bits of the code.
      if isHigh high && isLow low then
        (joined? pieces).map (Char.ofNat (0x10000 + (high - 0xD800) * 0x400 + (low - 0xDC00)) :: ·)
      else if isHigh high || isLow high then none
      else (joined? (.unit low :: pieces)).map (Char.ofNat high :: ·)
  | .unit unit :: pieces =>
      if isHigh unit || isLow unit then none
      else (joined? pieces).map (Char.ofNat unit :: ·)

def string? (chars : List Char) : Option (Option String × List Char) := do
  let (pieces, rest) ← pieces? chars
  return ((joined? pieces).map String.ofList, rest)

section Number

/-- Digits gathered as far as eight bytes hold them, with the power of ten still to apply. -/
structure Significand where
  digits : Nat
  power : Int
  full : Bool

def Significand.addWhole (significand : Significand) (digit : Nat) : Significand :=
  let next := significand.digits * 10 + digit
  if significand.full ∨ Numeral.largestNatural < next then
    { significand with power := significand.power + 1, full := true }
  else { significand with digits := next }

def Significand.addFraction (significand : Significand) (digit : Nat) : Significand :=
  let next := significand.digits * 10 + digit
  if significand.full ∨ Numeral.largestNatural < next then { significand with full := true }
  else { significand with digits := next, power := significand.power - 1 }

def powerOfTen (exponent : Nat) : Binary64 := Binary64.ofDecimal false 1 exponent

/-- Divides by `10 ^ 308` until the remaining exponent is a power of ten in range. -/
def shrink (value : Binary64) : Nat → Nat → Binary64
  | exponent, 0 => value.dividedBy (powerOfTen (min exponent 308))
  | exponent, fuel + 1 =>
      if exponent ≤ 308 then value.dividedBy (powerOfTen exponent)
      -- Nothing is left to divide, however large the exponent.
      else if value.isZero then value
      else shrink (value.dividedBy (powerOfTen 308)) (exponent - 308) fuel

/-- The significand scaled by its power of ten, rounded at each step. -/
def scaledBy (digits : Nat) (exponent : Int) : Binary64 :=
  let value := Binary64.ofNat digits
  if 0 ≤ exponent then
    if exponent ≤ 308 then value.times (powerOfTen exponent.toNat)
    else if value.isZero then value else .infinite false
  else shrink value (-exponent).toNat 4

/-- The value of a number with a point or an exponent, or of one too long for an integer. -/
def real (negative : Bool) (significand : Significand) (exponent : Int) : Json :=
  let value := scaledBy significand.digits (significand.power + exponent)
  .number (if negative then value.negate else value)

def digitRun (chars : List Char) : List Nat × List Char :=
  let digits := chars.takeWhile fun char => (Numeral.digit? 10 char).isSome
  (digits.filterMap (Numeral.digit? 10), chars.drop digits.length)

def exponent? (chars : List Char) : Option (Int × List Char) :=
  let (negative, chars) := Numeral.signed chars
  match digitRun chars with
  | ([], _) => none
  | (digits, rest) =>
      let value : Nat := digits.foldl (fun value digit => value * 10 + digit) 0
      some (if negative then -(value : Int) else value, rest)

def number? (negative : Bool) (chars : List Char) : Option (Json × List Char) := do
  let (whole, rest) := digitRun chars
  guard (!whole.isEmpty)
  guard (whole.head? ≠ some 0 ∨ whole.length = 1)
  let significand := whole.foldl Significand.addWhole ⟨0, 0, false⟩
  let (significand, rest, pointed) ← match rest with
    | '.' :: rest =>
        let (fraction, rest) := digitRun rest
        if fraction.isEmpty then none
        else
          let start := { significand with full := false }
          some (fraction.foldl Significand.addFraction start, rest, true)
    | rest => some (significand, rest, false)
  match rest with
  | mark :: after =>
      if mark = 'e' ∨ mark = 'E' then
        let (exponent, rest) ← exponent? after
        return (real negative significand exponent, rest)
      else return (plain pointed significand, rest)
  | [] => return (plain pointed significand, [])
where
  plain (pointed : Bool) (significand : Significand) : Json :=
    if pointed ∨ significand.full then real negative significand 0
    else if negative then
      -- A negative zero and what lies below the least integer are no integers.
      if significand.digits = 0 ∨ 0x8000000000000000 < significand.digits then real true significand 0
      else .integer (-(significand.digits : Int))
    else .integer significand.digits

end Number

/-- An object whose keys all name texts; one with a key that does not may only be skipped. -/
def ofMembers (members : List (Option String × Json)) : Json :=
  match members.mapM fun (key, value) => key.map fun key => (key, value) with
  | some members => .object members
  | none => .unreadable

mutual

def value? : Nat → List Char → Option (Json × List Char)
  | 0, _ => none
  | fuel + 1, chars =>
      match skipGap chars with
      | 'n' :: 'u' :: 'l' :: 'l' :: rest => some (.null, rest)
      | 't' :: 'r' :: 'u' :: 'e' :: rest => some (.boolean true, rest)
      | 'f' :: 'a' :: 'l' :: 's' :: 'e' :: rest => some (.boolean false, rest)
      | '"' :: rest => do
          let (content, rest) ← string? rest
          return (content.elim .unreadable .text, rest)
      | '-' :: rest => number? true rest
      | '[' :: rest =>
          match skipGap rest with
          | ']' :: rest => some (.list [], rest)
          | rest => do
              let (items, rest) ← items? fuel rest
              return (.list items, rest)
      | '\x7b' :: rest =>
          match skipGap rest with
          | '\x7d' :: rest => some (.object [], rest)
          | rest => do
              let (members, rest) ← members? fuel rest
              return (ofMembers members, rest)
      | rest => number? false rest

def items? : Nat → List Char → Option (List Json × List Char)
  | 0, _ => none
  | fuel + 1, chars => do
      let (item, rest) ← value? fuel chars
      match skipGap rest with
      | ',' :: rest => do
          let (items, rest) ← items? fuel rest
          return (item :: items, rest)
      | ']' :: rest => return ([item], rest)
      | _ => none

def members? : Nat → List Char → Option (List (Option String × Json) × List Char)
  | 0, _ => none
  | fuel + 1, chars => do
      let '"' :: rest := skipGap chars | none
      let (key, rest) ← string? rest
      let ':' :: rest := skipGap rest | none
      let (value, rest) ← value? fuel rest
      match skipGap rest with
      | ',' :: rest => do
          let (members, rest) ← members? fuel rest
          return ((key, value) :: members, rest)
      | '\x7d' :: rest => return ([(key, value)], rest)
      | _ => none

end

def ofText? (text : String) : Option Json := do
  let chars := text.toList
  let (value, rest) ← value? (2 * chars.length + 2) chars
  guard (skipGap rest).isEmpty
  return value

end IngressControl.Json
