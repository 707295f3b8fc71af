import IngressControl.Decimal.Binary64
import IngressControl.Text.Cut
/-!
Numerals in texts: whole numbers, signed numbers and numbers with a point or an exponent.
-/

namespace IngressControl.Numeral

def digit? (base : Nat) (char : Char) : Option Nat :=
  let value :=
    if '0' ≤ char ∧ char ≤ '9' then some (char.toNat - '0'.toNat)
    else if 'a' ≤ char ∧ char ≤ 'z' then some (char.toNat - 'a'.toNat + 10)
    else if 'A' ≤ char ∧ char ≤ 'Z' then some (char.toNat - 'A'.toNat + 10)
    else none
  value.filter (· < base)

def digitsFrom? (base : Nat) : Nat → List Char → Option Nat
  | value, [] => some value
  | value, char :: chars => do digitsFrom? base (value * base + (← digit? base char)) chars

def digits? (base : Nat) : List Char → Option Nat
  | [] => none
  | chars => digitsFrom? base 0 chars

def natural? : List Char → Option Nat
  | '+' :: chars => digits? 10 chars
  | chars => digits? 10 chars

def integer? : List Char → Option Int
  | '+' :: chars => (digits? 10 chars).map Int.ofNat
  | '-' :: chars => (digits? 10 chars).map fun value => -(value : Int)
  | chars => (digits? 10 chars).map Int.ofNat

def largestNatural : Nat := 0xFFFFFFFFFFFFFFFF
def largestInteger : Int := 0x7FFFFFFFFFFFFFFF
def leastInteger : Int := -0x8000000000000000

def isInteger (value : Int) : Bool := leastInteger ≤ value && value ≤ largestInteger

def signed : List Char → Bool × List Char
  | '-' :: chars => (true, chars)
  | '+' :: chars => (false, chars)
  | chars => (false, chars)

/-- `digits`, `digits.digits`, either side of the point possibly empty but not both, and an
optional exponent. -/
def unsignedReal? (negative : Bool) (chars : List Char) : Option Binary64 := do
  let (mantissa, power) :=
    match chars.span fun char => char != 'e' && char != 'E' with
    | (mantissa, _ :: power) => (mantissa, some power)
    | (mantissa, []) => (mantissa, none)
  let exponent ← match power with
    | none => some (0 : Int)
    | some power => integer? power
  let (whole, fraction) := (Text.cutAt? '.' mantissa).getD (mantissa, [])
  let digits ← digits? 10 (whole ++ fraction)
  return Binary64.ofDecimal negative digits (exponent - fraction.length)

def real? (chars : List Char) : Option Binary64 :=
  let (negative, rest) := signed chars
  match Text.lowered (String.ofList rest) with
  | "inf" | "infinity" => some (.infinite negative)
  | "nan" => some .nan
  | _ => unsignedReal? negative rest

end IngressControl.Numeral
