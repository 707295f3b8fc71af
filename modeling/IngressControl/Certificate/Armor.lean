import IngressControl.Text.Blank
import IngressControl.Text.Cut
import IngressControl.Text.Utf8
/-!
Armored blocks: lines of base64 between a line that begins a block and one that ends it.

A block without a proper label, with a line that is no text or with content that is no base64 is
broken and passed over. A block without an end ends the search.
-/

namespace IngressControl.Armor

structure Block where
  label : String
  content : List UInt8
  deriving DecidableEq, Repr

section Base64

def sextet? (char : Char) : Option Nat :=
  if 'A' ≤ char ∧ char ≤ 'Z' then some (char.toNat - 'A'.toNat)
  else if 'a' ≤ char ∧ char ≤ 'z' then some (char.toNat - 'a'.toNat + 26)
  else if '0' ≤ char ∧ char ≤ '9' then some (char.toNat - '0'.toNat + 52)
  else if char = '+' then some 62
  else if char = '/' then some 63
  else none

/-- The bytes of a base64 text in groups of four characters. Padding only ends the last group, and
the bits that it leaves over are zero. -/
def decode? : List Char → Option (List UInt8)
  | [] => some []
  | [a, b, '=', '='] => do
      let bits := (← sextet? a) * 64 + (← sextet? b)
      guard (bits % 16 = 0)
      return [UInt8.ofNat (bits / 16)]
  | [a, b, c, '='] => do
      let bits := ((← sextet? a) * 64 + (← sextet? b)) * 64 + (← sextet? c)
      guard (bits % 4 = 0)
      return [UInt8.ofNat (bits / 1024), UInt8.ofNat (bits / 4 % 256)]
  | a :: b :: c :: d :: rest => do
      let bits := (((← sextet? a) * 64 + (← sextet? b)) * 64 + (← sextet? c)) * 64 + (← sextet? d)
      return UInt8.ofNat (bits / 65536) :: UInt8.ofNat (bits / 256 % 256)
        :: UInt8.ofNat (bits % 256) :: (← decode? rest)
  | _ => none

end Base64

def lines : List UInt8 → List (List UInt8)
  | [] => []
  | byte :: bytes =>
      if byte = 10 then [byte] :: lines bytes
      else
        match lines bytes with
        | [] => [[byte]]
        | line :: rest => (byte :: line) :: rest

/-- The label of a line that begins a block: up to its next five dashes, which have to be there,
and up to its own first dash. -/
def label? (line : List Char) : Option String := do
  let rest ← Text.withoutStart? "-----BEGIN ".toList line
  let text := rest.takeWhile (· ≠ '-')
  -- The label ends at five dashes; a dash before them shortens it.
  guard (hasDashes rest)
  return String.ofList text
where
  hasDashes : List Char → Bool
    | [] => false
    | char :: chars => (Text.withoutStart? "-----".toList (char :: chars)).isSome || hasDashes chars

def finish (label : String) (gathered : List Char) : Option Block :=
  (decode? gathered).map fun content => ⟨label, content⟩

/-- The unbroken blocks among lines; `opened` is the block that the lines continue. -/
def blocksIn (opened : Option (String × List Char)) : List (List UInt8) → List Block
  | [] => []
  | line :: rest =>
      match Utf8.decode? line, opened with
      | none, _ => blocksIn none rest
      | some text, none =>
          if Text.startsWith "-----BEGIN " text then
            blocksIn ((label? text.toList).map fun label => (label, [])) rest
          else blocksIn none rest
      | some text, some (label, gathered) =>
          if Text.startsWith "-----END " text then
            (finish label gathered).toList ++ blocksIn none rest
          else blocksIn (some (label, gathered ++ Text.trimEnd text.toList)) rest

def blocks (bytes : List UInt8) : List Block := blocksIn none (lines bytes)

end IngressControl.Armor
