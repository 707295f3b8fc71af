import IngressControl.Decimal.Binary64
/-!
The fewest decimal digits that read back as a given binary number, and the two ways in which
they are laid out.

A number's reading interval holds the reals that round to it. For one digit, two digits and so
on, the two neighbours of the number on that decimal grid are tested against the interval; the
first grid with a hit wins, and of two hits the nearer.
-/

namespace IngressControl

structure Decimal where
  digits : Nat
  exponent : Int
  deriving DecidableEq, Repr

namespace Decimal

def trimmed (decimal : Decimal) : Nat → Decimal
  | 0 => decimal
  | fuel + 1 =>
      if decimal.digits ≠ 0 ∧ decimal.digits % 10 = 0 then
        trimmed ⟨decimal.digits / 10, decimal.exponent + 1⟩ fuel
      else decimal

def tenths (numerator denominator : Nat) (exponent : Int) : Nat × Nat :=
  if 0 ≤ exponent then (numerator, denominator * Nat.pow 10 exponent.toNat)
  else (numerator * Nat.pow 10 (-exponent).toNat, denominator)

def reaches (numerator denominator : Nat) (exponent : Int) : Bool :=
  let (above, below) := tenths numerator denominator exponent
  below ≤ above

def magnitude (mantissa : Nat) (exponent : Int) : Int :=
  let (above, below) := Binary64.scaled mantissa 1 (-exponent)
  let guess := ((Nat.log2 mantissa : Int) + exponent) * 30103 / 100000
  if reaches above below (guess + 1) then guess + 1
  else if reaches above below guess then guess
  else guess - 1

/-- The reals that read as one number, as numerators over the common `denominator`. -/
structure Interval where
  lower : Nat
  centre : Nat
  upper : Nat
  denominator : Nat
  closed : Bool

/-- The reading interval of `mantissa · 2 ^ exponent`. Below a power of two the neighbours are
half as far apart as above it, and the ends belong to the number whose mantissa is even. -/
def Interval.around (mantissa : Nat) (exponent : Int) : Interval :=
  let narrow := mantissa = Nat.pow 2 52 ∧ Binary64.leastExponent < exponent
  let (unit, denominator) := Binary64.scaled 1 1 (-(exponent - 2))
  { lower := (4 * mantissa - if narrow then 1 else 2) * unit
    centre := 4 * mantissa * unit
    upper := (4 * mantissa + 2) * unit
    denominator
    closed := mantissa % 2 = 0 }

def Interval.holds (interval : Interval) (numerator : Nat) : Bool :=
  if interval.closed then interval.lower ≤ numerator && numerator ≤ interval.upper
  else interval.lower < numerator && numerator < interval.upper

/-- The point of the grid of multiples of `10 ^ exponent` that reads as the interval's number
and is nearest to it, if there is one. -/
def Interval.pointOn? (interval : Interval) (exponent : Int) : Option Decimal :=
  let (up, down) : Nat × Nat :=
    if 0 ≤ exponent then (Nat.pow 10 exponent.toNat, 1) else (1, Nat.pow 10 (-exponent).toNat)
  -- All numerators are over `denominator * down` from here on.
  let step := up * interval.denominator
  let finer : Interval :=
    { interval with
      lower := interval.lower * down, centre := interval.centre * down
      upper := interval.upper * down, denominator := interval.denominator * down }
  let below := finer.centre / step
  match finer.holds (below * step), finer.holds ((below + 1) * step) with
  | true, true =>
      let under := finer.centre - below * step
      let above := (below + 1) * step - finer.centre
      if under < above ∨ (under = above ∧ below % 2 = 0) then some ⟨below, exponent⟩
      else some ⟨below + 1, exponent⟩
  | true, false => some ⟨below, exponent⟩
  | false, true => some ⟨below + 1, exponent⟩
  | false, false => none

def Interval.firstPoint (interval : Interval) (exponent : Int) : Nat → Decimal
  | 0 => ⟨0, 0⟩
  | fuel + 1 =>
      match interval.pointOn? exponent with
      | some point => point
      | none => interval.firstPoint (exponent - 1) fuel

/-- The fewest digits that read back as `mantissa · 2 ^ exponent`. Seventeen always do. -/
def shortest (mantissa : Nat) (exponent : Int) : Decimal :=
  if mantissa = 0 then ⟨0, 0⟩
  else
    let point := (Interval.around mantissa exponent).firstPoint (magnitude mantissa exponent) 18
    point.trimmed 20

def zeros (count : Nat) : String := String.ofList (List.replicate count '0')

def pointed (digits : String) (lead : Int) : String :=
  let length : Int := digits.length
  if lead ≤ 0 then "0." ++ zeros (-lead).toNat ++ digits
  else if length ≤ lead then digits ++ zeros (lead - length).toNat
  else
    String.ofList (digits.toList.take lead.toNat) ++ "."
      ++ String.ofList (digits.toList.drop lead.toNat)

/-- The layout in a JSON text: positional with at least one decimal from `0.00001` to below
`10 ^ 16`, otherwise with one digit before the point and an exponent that carries its sign. -/
def jsonText (decimal : Decimal) : String :=
  let digits := toString decimal.digits
  let lead : Int := digits.length + decimal.exponent
  if decimal.digits = 0 then "0.0"
  else if -5 < lead ∧ lead ≤ 16 then
    let text := pointed digits lead
    if (digits.length : Int) ≤ lead then text ++ ".0" else text
  else
    let power := lead - 1
    let head := if digits.length = 1 then digits else pointed digits 1
    head ++ "e" ++ (if power < 0 then "-" else "+") ++ toString power.natAbs

end Decimal

namespace Binary64

def signText (negative : Bool) : String := if negative then "-" else ""

def jsonText : Binary64 → String
  | .finite negative mantissa exponent =>
      signText negative ++ (Decimal.shortest mantissa exponent).jsonText
  | _ => "null"

/-- The layout of numbers in running text: positional at any size, whole numbers without a
point. -/
def plainText : Binary64 → String
  | .nan => "NaN"
  | .infinite negative => signText negative ++ "inf"
  | .finite negative mantissa exponent =>
      let decimal := Decimal.shortest mantissa exponent
      let digits := toString decimal.digits
      signText negative
        ++ if decimal.digits = 0 then "0" else Decimal.pointed digits (digits.length + decimal.exponent)

end Binary64

end IngressControl
