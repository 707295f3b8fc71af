import IngressControl.Decimal.Numeral
import IngressControl.Instant.Calendar
import IngressControl.Instant.Stamp
/-!
Numbers and stamps of TOML texts.

Underscores may stand between the digits of a number. A stamp is a date, a time of day or both,
with or without a distance from universal time.
-/

namespace IngressControl.Toml

inductive Scalar where
  | truth (value : Bool)
  | whole (value : Int)
  | real (value : Binary64)
  | stamp (text : String)
  deriving Repr

def isDecimal (char : Char) : Bool := '0' ≤ char && char ≤ '9'

def grouped? (chars : List Char) : Option (List Char) :=
  let groups := Text.pieces '_' chars
  if groups.any List.isEmpty then none else some groups.flatten

def based? : List Char → Option Int
  | '0' :: 'x' :: digits => natural? 16 digits
  | '0' :: 'o' :: digits => natural? 8 digits
  | '0' :: 'b' :: digits => natural? 2 digits
  | _ => none
where
  natural? (base : Nat) (digits : List Char) : Option Int := do
    return ((← Numeral.digits? base (← grouped? digits)) : Nat)

def decimal? (chars : List Char) : Option (List Char) := do
  let digits ← grouped? chars
  guard (digits.all isDecimal && (digits.length = 1 || digits.head? != some '0'))
  return digits

def whole? (chars : List Char) : Option Int := do
  let (negative, rest) := Numeral.signed chars
  let value ← Numeral.digits? 10 (← decimal? rest)
  return if negative then -(value : Int) else value

def fraction? (chars : List Char) : Option (List Char) :=
  match chars with
  | [] => some []
  | '.' :: digits => do
      let digits ← grouped? digits
      guard (digits.all isDecimal)
      return '.' :: digits
  | _ => none

def exponent? (chars : List Char) : Option (List Char) :=
  match chars with
  | [] => some []
  | _ :: power => do
      let (negative, digits) := Numeral.signed power
      let digits ← grouped? digits
      guard (digits.all isDecimal)
      return 'e' :: if negative then '-' :: digits else digits

def real? (chars : List Char) : Option Binary64 := do
  let (negative, unsigned) := Numeral.signed chars
  match String.ofList unsigned with
  | "inf" => return .infinite negative
  | "nan" => return .nan
  | _ =>
      let (mantissa, power) := unsigned.span fun char => char != 'e' && char != 'E'
      let (digits, point) := mantissa.span (· ≠ '.')
      let digits ← decimal? digits
      let value ←
        Numeral.unsignedReal? negative (digits ++ (← fraction? point) ++ (← exponent? power))
      guard value.isFinite
      return value

def field? (count : Nat) (chars : List Char) : Option (Nat × List Char) := do
  let digits := chars.take count
  guard (digits.length = count)
  return (← Numeral.digits? 10 digits, chars.drop count)

def mark? (wanted : Char) : List Char → Option (List Char)
  | char :: rest => if char = wanted then some rest else none
  | [] => none

def date? (chars : List Char) : Option (String × List Char) := do
  let (year, rest) ← field? 4 chars
  let (month, rest) ← field? 2 (← mark? '-' rest)
  let (day, rest) ← field? 2 (← mark? '-' rest)
  let _ ← Date.exists? year month day
  return (padded 4 year ++ "-" ++ padded 2 month ++ "-" ++ padded 2 day, rest)

def fractionText (digits : List Char) : String :=
  let kept := ((digits.take 9).reverse.dropWhile (· = '0')).reverse
  if kept.isEmpty then "" else String.ofList ('.' :: kept)

def time? (chars : List Char) : Option (String × List Char) := do
  let (hour, rest) ← field? 2 chars
  let (minute, rest) ← field? 2 (← mark? ':' rest)
  let (second, rest) ← field? 2 (← mark? ':' rest)
  guard (hour < 24 && minute < 60 && second ≤ 60)
  let text := padded 2 hour ++ ":" ++ padded 2 minute ++ ":" ++ padded 2 second
  match rest with
  | '.' :: rest =>
      let (digits, rest) := rest.span isDecimal
      guard !digits.isEmpty
      return (text ++ fractionText digits, rest)
  | _ => return (text, rest)

def zone? (chars : List Char) : Option String :=
  match chars with
  | [] => some ""
  | ['Z'] => some "Z"
  | ['z'] => some "Z"
  | sign :: rest => do
      guard (sign = '+' || sign = '-')
      let (hour, rest) ← field? 2 rest
      let (minute, rest) ← field? 2 (← mark? ':' rest)
      guard (rest.isEmpty && hour < 24 && minute < 60)
      let sign := if sign = '-' && 0 < hour + minute then "-" else "+"
      return sign ++ padded 2 hour ++ ":" ++ padded 2 minute

def stamp? (chars : List Char) : Option String :=
  match date? chars with
  | some (date, []) => some date
  | some (date, between :: rest) => do
      guard (between = 'T' || between = 't' || between = ' ')
      let (time, rest) ← time? rest
      return date ++ "T" ++ time ++ (← zone? rest)
  | none =>
      match time? chars with
      | some (time, []) => some time
      | _ => none

def Scalar.ofWord? (chars : List Char) : Option Scalar :=
  match String.ofList chars with
  | "true" => some (.truth true)
  | "false" => some (.truth false)
  | _ =>
      match (based? chars).orElse fun _ => whole? chars with
      | some value => if Numeral.isInteger value then some (.whole value) else none
      | none => ((stamp? chars).map .stamp).orElse fun _ => (real? chars).map .real

def isWordChar (char : Char) : Bool :=
  char.isAlphanum || char = '+' || char = '-' || char = '_' || char = '.' || char = ':'

/-- The word at the front. A blank behind a date and in front of a digit belongs to it. -/
def word (chars : List Char) : List Char × List Char :=
  match chars.span isWordChar with
  | (date, ' ' :: digit :: rest) =>
      if (date? date).any (fun found => found.2.isEmpty) && isDecimal digit then
        let (time, rest) := (digit :: rest).span isWordChar
        (date ++ ' ' :: time, rest)
      else (date, ' ' :: digit :: rest)
  | found => found

end IngressControl.Toml
