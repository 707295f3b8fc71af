import IngressControl.Certificate.Basic
import IngressControl.Text.Utf8
/-!
The distinguished encoding of nested elements, as far as certificates need it.

What stands behind the parts that are read in an element does not count.
-/

namespace IngressControl.Der

inductive ElementClass where
  | universal
  | application
  | context
  | personal
  deriving DecidableEq, Repr

structure Element where
  kind : ElementClass
  constructed : Bool
  tag : Nat
  content : List UInt8
  deriving Repr

abbrev Reader (α : Type) := List UInt8 → Option (α × List UInt8)

def kindOf (byte : Nat) : ElementClass :=
  if byte < 0x40 then .universal
  else if byte < 0x80 then .application
  else if byte < 0xC0 then .context
  else .personal

def longTag : Nat → List UInt8 → Option (Nat × List UInt8)
  | _, [] => none
  | value, byte :: bytes =>
      let value := value * 128 + byte.toNat % 128
      if byte < 0x80 then some (value, bytes) else longTag value bytes

def bigEndian (bytes : List UInt8) : Nat := bytes.foldl (fun value byte => value * 256 + byte.toNat) 0

def length? : List UInt8 → Option (Nat × List UInt8)
  | [] => none
  | byte :: bytes =>
      if byte < 0x80 then some (byte.toNat, bytes)
      else
        let count := byte.toNat - 0x80
        if count = 0 ∨ 8 < count ∨ bytes.length < count then none
        else some (bigEndian (bytes.take count), bytes.drop count)

def element? : Reader Element
  | [] => none
  | first :: bytes => do
      let (tag, rest) ←
        if first.toNat % 32 = 31 then longTag 0 bytes else some (first.toNat % 32, bytes)
      let (length, rest) ← length? rest
      guard (length ≤ rest.length)
      return (
        { kind := kindOf first.toNat, constructed := first.toNat / 32 % 2 = 1, tag
          content := rest.take length },
        rest.drop length)

def universal? (tag : Nat) (constructed : Bool) : Reader (List UInt8) := fun bytes => do
  let (element, rest) ← element? bytes
  guard (element.kind = .universal && element.tag = tag && element.constructed = constructed)
  return (element.content, rest)

def sequence? : Reader (List UInt8) := universal? 16 true
def set? : Reader (List UInt8) := universal? 17 true
def identifier? : Reader (List UInt8) := universal? 6 false
def octets? : Reader (List UInt8) := universal? 4 false

def tagged? (tag : Nat) (bytes : List UInt8) : Option (Option Element × List UInt8) := do
  if bytes.isEmpty then return (none, bytes)
  let (element, rest) ← element? bytes
  if element.kind = .context ∧ element.tag = tag then return (some element, rest)
  else return (none, bytes)

def isBitString : List UInt8 → Bool
  | [] => false
  | unused :: bits =>
      unused.toNat ≤ 7
        && match bits.getLast? with
          | none => unused = 0
          | some last => last.toNat % Nat.pow 2 unused.toNat = 0

def bitString? : Reader Unit := fun bytes => do
  let (content, rest) ← universal? 3 false bytes
  guard (isBitString content)
  return ((), rest)

def many {α : Type} (read : Reader α) : Nat → List UInt8 → List α × List UInt8
  | 0, bytes => ([], bytes)
  | fuel + 1, bytes =>
      match read bytes with
      | none => ([], bytes)
      | some (value, rest) =>
          let (values, rest) := many read fuel rest
          (value :: values, rest)

section Time

def decimal? (first second : UInt8) : Option Nat :=
  let digit (byte : UInt8) : Option Nat :=
    if 48 ≤ byte && byte ≤ 57 then some (byte.toNat - 48) else none
  do return (← digit first) * 10 + (← digit second)

/-- Seconds of a distance from universal time. Behind an hour of zero the sign of the minutes is
lost. -/
def offset? : List UInt8 → Option Int
  | [90] => some 0
  | [sign, a, b, c, d] => do
      guard (sign = 43 ∨ sign = 45)
      let hours ← decimal? a b
      let minutes ← decimal? c d
      guard (hours ≤ 23 ∧ minutes ≤ 59)
      let distance : Int := hours * 3600 + minutes * 60
      return if sign = 45 ∧ hours ≠ 0 then -distance else distance
  | _ => none

def clock? : List UInt8 → Option ((Nat × Nat × Nat × Nat × Nat) × List UInt8)
  | a :: b :: c :: d :: e :: f :: g :: h :: rest => do
      let month ← decimal? a b
      let day ← decimal? c d
      let hour ← decimal? e f
      let minute ← decimal? g h
      let (second, rest) :=
        match rest with
        | i :: j :: after =>
            -- What is no pair of digits is the zone already.
            match decimal? i j with
            | some second => (second, after)
            | none => (0, rest)
        | _ => (0, rest)
      guard (hour ≤ 23 ∧ minute ≤ 59 ∧ second ≤ 59)
      return ((month, day, hour, minute, second), rest)
  | _ => none

def moment? (year : Nat) (clock : Nat × Nat × Nat × Nat × Nat) (offset : Int) : Option Instant := do
  let (month, day, hour, minute, second) := clock
  let date ← Date.exists? year month day
  let ofDay : Int := hour * 3600 + minute * 60 + second
  return ⟨date.number * 86400 + ofDay - offset, 0⟩

/-- A time with two digits of its year, which lies from 1950 to 2049. -/
def shortTime? : List UInt8 → Option Instant
  | a :: b :: rest => do
      let year ← decimal? a b
      let (clock, rest) ← clock? rest
      moment? (if 50 ≤ year then 1900 + year else 2000 + year) clock (← offset? rest)
  | _ => none

/-- A fraction of up to three digits behind a point, which does not count. -/
def skipFraction : List UInt8 → Option (List UInt8)
  | 46 :: rest =>
      let digits := rest.takeWhile fun byte => 48 ≤ byte && byte ≤ 57
      if digits.isEmpty ∨ 3 < digits.length then none else some (rest.drop digits.length)
  | rest => some rest

def longTime? : List UInt8 → Option Instant
  | a :: b :: c :: d :: rest => do
      let century ← decimal? a b
      let year ← decimal? c d
      let (clock, rest) ← clock? rest
      guard ((← skipFraction rest) = [90])
      moment? (century * 100 + year) clock 0
  | _ => none

def time? : Reader Instant := fun bytes => do
  let (element, rest) ← element? bytes
  guard (element.kind = .universal && !element.constructed)
  match element.tag with
  | 23 => return (← shortTime? element.content, rest)
  | 24 => return (← longTime? element.content, rest)
  | _ => none

end Time

end IngressControl.Der
