import IngressControl.Instant.Basic
import IngressControl.Decimal.Numeral
import IngressControl.Text.Blank
/-!
Reading time stamps, in a strict form and in a relaxed one.

The strict form has fixed fields and says what is wrong with a text. The relaxed form admits
white space between its parts, years of any length behind a sign and single digits, and only
says that a text is no stamp.
-/

namespace IngressControl

inductive StampFault where
  | short
  | invalid
  | range
  | trailing
  deriving DecidableEq, Repr

def StampFault.message : StampFault → String
  | .short => "premature end of input"
  | .invalid => "input contains invalid characters"
  | .range => "input is out of range"
  | .trailing => "trailing input"

namespace Stamp

abbrev Outcome := Except StampFault

structure Fields where
  date : Date
  hour : Nat
  minute : Nat
  second : Nat
  nano : Nat

/-- Whether the stated year can be represented, whatever the offset does to it. -/
def Fields.isYear (fields : Fields) : Bool :=
  Instant.leastYear ≤ fields.date.year && fields.date.year ≤ Instant.greatestYear

/-- The moment that the fields name at an offset of so many seconds. Second sixty is the leap
second behind second fifty-nine. -/
def Fields.moment? (fields : Fields) (offset : Int) : Outcome Instant :=
  let (second, extra) := if fields.second = 60 then (59, 1000000000) else (fields.second, 0)
  if !fields.isYear ∨ offset ≤ -86400 ∨ 86400 ≤ offset then .error .range
  else
    let ofDay : Int := fields.hour * 3600 + fields.minute * 60 + second
    let moment : Instant := ⟨fields.date.number * 86400 + ofDay - offset, fields.nano + extra⟩
    match moment.inRange? with
    | some moment => .ok moment
    | none => .error .range

def Fields.isTimeOfDay (fields : Fields) : Bool :=
  fields.hour < 24 && fields.minute < 60 && fields.second ≤ 60

def bytes (chars : List Char) : Nat := (String.ofList chars).utf8ByteSize

def isDigit (char : Char) : Bool := (Numeral.digit? 10 char).isSome

def number (least most : Nat) (chars : List Char) : Outcome (Nat × List Char) :=
  let digits := (chars.take most).takeWhile isDigit
  if digits.length < least then
    if bytes chars < least then .error .short else .error .invalid
  else .ok (((Numeral.digitsFrom? 10 0 digits).getD 0), chars.drop digits.length)

def mark (wanted : Char → Bool) : List Char → Outcome (Unit × List Char)
  | [] => .error .short
  | char :: chars => if wanted char then .ok ((), chars) else .error .invalid

/-- Digits of a fraction of a second, those past the ninth without effect. -/
def fraction (chars : List Char) : Outcome (Nat × List Char) := do
  let (value, rest) ← number 1 9 chars
  let count := chars.length - rest.length
  return (value * Nat.pow 10 (9 - count), rest.dropWhile isDigit)

def optionalFraction : List Char → Outcome (Nat × List Char)
  | '.' :: chars => fraction chars
  | chars => .ok (0, chars)

def offset (between : List Char → Outcome (Unit × List Char)) : List Char → Outcome (Int × List Char)
  | [] => .error .short
  | 'Z' :: chars => .ok (0, chars)
  | 'z' :: chars => .ok (0, chars)
  | sign :: chars =>
      if sign = '+' ∨ sign = '-' ∨ sign = '\u2212' then do
        let (hours, rest) ← pair chars
        let ((), rest) ← between rest
        let (minutes, rest) ← pair rest
        if 60 ≤ minutes then throw .range
        let distance : Int := hours * 3600 + minutes * 60
        return (if sign = '+' then distance else -distance, rest)
      else .error .invalid
where
  pair (chars : List Char) : Outcome (Nat × List Char) :=
    if bytes chars < 2 then .error .short else number 2 2 chars

namespace Strict

def digits (count : Nat) (chars : List Char) : Outcome (Nat × List Char) :=
  match number count count chars with
  | .ok part => .ok part
  | .error _ => .error .invalid

def colon (chars : List Char) : Outcome (Unit × List Char) := mark (· = ':') chars

def exactly (wanted : Char → Bool) (chars : List Char) : Outcome (Unit × List Char) :=
  match mark wanted chars with
  | .ok part => .ok part
  | .error _ => .error .invalid

def date (chars : List Char) : Outcome (Date × List Char) := do
  let (year, rest) ← digits 4 chars
  let ((), rest) ← exactly (· = '-') rest
  let (month, rest) ← digits 2 rest
  let ((), rest) ← exactly (· = '-') rest
  let (day, rest) ← digits 2 rest
  match Date.exists? year month day with
  | some date => return (date, rest)
  | none => throw .range

end Strict

def strict (text : String) : Outcome Instant := do
  if text.utf8ByteSize < 19 then throw .short
  let (date, rest) ← Strict.date text.toList
  let ((), rest) ← Strict.exactly (fun char => char = 'T' || char = 't' || char = ' ') rest
  let (hour, rest) ← Strict.digits 2 rest
  let ((), rest) ← Strict.exactly (· = ':') rest
  let (minute, rest) ← Strict.digits 2 rest
  let ((), rest) ← Strict.exactly (· = ':') rest
  let (second, rest) ← Strict.digits 2 rest
  let (nano, rest) ← optionalFraction rest
  let fields : Fields := { date, hour, minute, second, nano }
  if !fields.isTimeOfDay then throw .range
  let (distance, rest) ← offset Strict.colon rest
  if !rest.isEmpty then throw .trailing
  fields.moment? distance

namespace Relaxed

def gap (chars : List Char) : List Char := Text.trimStart chars

def field (most : Nat) (chars : List Char) : Outcome (Nat × List Char) := number 1 most (gap chars)

/-- A year: behind a sign of any length, otherwise of up to four digits. -/
def year (chars : List Char) : Outcome (Int × List Char) :=
  match gap chars with
  | '-' :: rest => do
      let (value, rest) ← number 1 rest.length rest
      return (-(value : Int), rest)
  | '+' :: rest => do
      let (value, rest) ← number 1 rest.length rest
      return ((value : Int), rest)
  | rest => do
      let (value, rest) ← number 1 4 rest
      return ((value : Int), rest)

def separator (wanted : Char) (chars : List Char) : Outcome (Unit × List Char) :=
  mark (· = wanted) (gap chars)

def between (chars : List Char) : Outcome (Unit × List Char) :=
  .ok ((), chars.dropWhile fun char => char = ':' || Text.isBlank char)

def zone (chars : List Char) : Outcome (Int × List Char) :=
  match chars with
  | first :: second :: third :: rest =>
      if Text.sameLetters (String.ofList [first, second, third]) "utc" then .ok (0, rest)
      else offset between chars
  | _ => offset between chars

end Relaxed

def relaxed? (text : String) : Option Instant :=
  let outcome : Outcome Instant := do
    let (year, rest) ← Relaxed.year text.toList
    let ((), rest) ← Relaxed.separator '-' rest
    let (month, rest) ← Relaxed.field 2 rest
    let ((), rest) ← Relaxed.separator '-' rest
    let (day, rest) ← Relaxed.field 2 rest
    let ((), rest) ← mark (fun char => char = 'T' || char = 't' || char = ' ') rest
    let (hour, rest) ← Relaxed.field 2 rest
    let ((), rest) ← Relaxed.separator ':' rest
    let (minute, rest) ← Relaxed.field 2 rest
    let ((), rest) ← Relaxed.separator ':' rest
    let (second, rest) ← Relaxed.field 2 rest
    let (nano, rest) ← optionalFraction rest
    let (distance, rest) ← Relaxed.zone (Relaxed.gap rest)
    if !(Relaxed.gap rest).isEmpty then throw .trailing
    let some date := Date.exists? year month day | throw .range
    let fields : Fields := { date, hour, minute, second, nano }
    if !fields.isTimeOfDay then throw .range
    fields.moment? distance
  outcome.toOption

end Stamp

end IngressControl
