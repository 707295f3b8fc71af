/-!
Binary floating point with a 53-bit significand, in exact integer arithmetic.

A finite number is `± mantissa · 2 ^ exponent`, kept in the one form in which either the
mantissa has all its 53 bits or the exponent is the least one. `ofQuotient` is the only place
that rounds: to the nearest number, a tie to the even mantissa.
-/

namespace IngressControl

inductive Binary64 where
  | nan
  | infinite (negative : Bool)
  | finite (negative : Bool) (mantissa : Nat) (exponent : Int)
  deriving DecidableEq, Repr

namespace Binary64

def leastExponent : Int := -1074
def greatestExponent : Int := 971

def zero (negative : Bool) : Binary64 := .finite negative 0 leastExponent

instance : Inhabited Binary64 := ⟨zero false⟩

/-- The quotient to the nearest whole number, a half to the even one. -/
def roundQuotient (numerator denominator : Nat) : Nat :=
  let whole := numerator / denominator
  let twice := 2 * (numerator % denominator)
  if twice < denominator then whole
  else if denominator < twice then whole + 1
  else whole + whole % 2

def scaled (numerator denominator : Nat) (exponent : Int) : Nat × Nat :=
  if 0 ≤ exponent then (numerator, denominator * Nat.pow 2 exponent.toNat)
  else (numerator * Nat.pow 2 (-exponent).toNat, denominator)

def ofQuotient (negative : Bool) (numerator denominator : Nat) : Binary64 :=
  if numerator = 0 ∨ denominator = 0 then zero negative
  else
    let guess : Int := (Nat.log2 numerator : Int) - Nat.log2 denominator - 53
    -- The guess gives a quotient of 53 or 54 bits.
    let exponent :=
      let (above, below) := scaled numerator denominator guess
      if above / below < Nat.pow 2 53 then guess else guess + 1
    let exponent := max exponent leastExponent
    let (above, below) := scaled numerator denominator exponent
    let mantissa := roundQuotient above below
    -- Rounding up may take one bit more.
    let (mantissa, exponent) :=
      if mantissa = Nat.pow 2 53 then (Nat.pow 2 52, exponent + 1) else (mantissa, exponent)
    if greatestExponent < exponent then .infinite negative
    else .finite negative mantissa exponent

def ofScaled (negative : Bool) (mantissa : Nat) (exponent : Int) : Binary64 :=
  if 0 ≤ exponent then ofQuotient negative (mantissa * Nat.pow 2 exponent.toNat) 1
  else ofQuotient negative mantissa (Nat.pow 2 (-exponent).toNat)

def ofNat (value : Nat) : Binary64 := ofQuotient false value 1

def ofInt (value : Int) : Binary64 := ofQuotient (value < 0) value.natAbs 1

def digitCount (value : Nat) : Nat :=
  if value = 0 then 0 else (Nat.toDigits 10 value).length

/-- `± digits · 10 ^ exponent`, rounded. Numbers far outside the range are settled by their
magnitude alone, so no power is computed for them. -/
def ofDecimal (negative : Bool) (digits : Nat) (exponent : Int) : Binary64 :=
  if digits = 0 then zero negative
  else
    let magnitude := exponent + digitCount digits
    if 310 < magnitude then .infinite negative
    else if magnitude < -330 then zero negative
    else if 0 ≤ exponent then ofQuotient negative (digits * Nat.pow 10 exponent.toNat) 1
    else ofQuotient negative digits (Nat.pow 10 (-exponent).toNat)

def isFinite : Binary64 → Bool
  | .finite .. => true
  | _ => false

def isZero : Binary64 → Bool
  | .finite _ mantissa _ => mantissa = 0
  | _ => false

def negate : Binary64 → Binary64
  | .nan => .nan
  | .infinite negative => .infinite !negative
  | .finite negative mantissa exponent => .finite (!negative) mantissa exponent

def times : Binary64 → Binary64 → Binary64
  | .finite first a p, .finite second b q => ofScaled (first != second) (a * b) (p + q)
  | _, _ => .nan

def dividedBy : Binary64 → Binary64 → Binary64
  | .finite first a p, .finite second b q =>
      let exponent := p - q
      if 0 ≤ exponent then ofQuotient (first != second) (a * Nat.pow 2 exponent.toNat) b
      else ofQuotient (first != second) a (b * Nat.pow 2 (-exponent).toNat)
  | _, _ => .nan

def aligned (least : Int) (negative : Bool) (mantissa : Nat) (exponent : Int) : Int :=
  let magnitude : Int := mantissa * Nat.pow 2 (exponent - least).toNat
  if negative then -magnitude else magnitude

def plus : Binary64 → Binary64 → Binary64
  | .finite first a p, .finite second b q =>
      let least := min p q
      let total := aligned least first a p + aligned least second b q
      if total = 0 then zero (first && second)
      else ofScaled (total < 0) total.natAbs least
  | .infinite first, .infinite second => if first = second then .infinite first else .nan
  | .infinite first, .finite .. => .infinite first
  | .finite .., .infinite second => .infinite second
  | _, _ => .nan

/-- The nearest integer, a half away from zero. -/
def round : Binary64 → Option Int
  | .finite negative mantissa exponent =>
      let (above, below) := scaled mantissa 1 (-exponent)
      let whole := (2 * above + below) / (2 * below)
      some (if negative then -(whole : Int) else whole)
  | _ => none

end Binary64

end IngressControl
