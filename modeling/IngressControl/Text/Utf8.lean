/-!
Texts in UTF-8 bytes: strict decoding, and decoding that puts a replacement character for each
longest run of bytes that starts a character but does not end one.
-/

namespace IngressControl.Utf8

/-- The shape of a character by its first byte: the bits that this byte contributes, the bounds
of the second byte, and how many bytes follow. -/
def shape? (byte : UInt8) : Option (Nat × UInt8 × UInt8 × Nat) :=
  let value := byte.toNat
  if value < 0x80 then some (value, 0, 0, 0)
  else if 0xC2 ≤ value ∧ value ≤ 0xDF then some (value - 0xC0, 0x80, 0xBF, 1)
  else if value = 0xE0 then some (0, 0xA0, 0xBF, 2)
  else if value = 0xED then some (0xD, 0x80, 0x9F, 2)
  else if 0xE1 ≤ value ∧ value ≤ 0xEF then some (value - 0xE0, 0x80, 0xBF, 2)
  else if value = 0xF0 then some (0, 0x90, 0xBF, 3)
  else if 0xF1 ≤ value ∧ value ≤ 0xF3 then some (value - 0xF0, 0x80, 0xBF, 3)
  else if value = 0xF4 then some (4, 0x80, 0x8F, 3)
  else none

/-- Adds following bytes to the bits of a character. Without a character it still says how many of
them belong to the run. -/
def follow (bits : Nat) (low high : UInt8) : Nat → List UInt8 → Option Nat × Nat
  | 0, _ => (some bits, 0)
  | _ + 1, [] => (none, 0)
  | count + 1, byte :: bytes =>
      if low ≤ byte && byte ≤ high then
        let (value, length) := follow (bits * 64 + (byte.toNat - 0x80)) 0x80 0xBF count bytes
        (value, length + 1)
      else (none, 0)

/-- The character at the front, if there is one, and how many bytes it or the broken run takes. -/
def front (byte : UInt8) (bytes : List UInt8) : Option Char × Nat :=
  match shape? byte with
  | none => (none, 1)
  | some (bits, low, high, count) =>
      let (value, length) := follow bits low high count bytes
      (value.map Char.ofNat, length + 1)

def decodeFrom : Nat → List UInt8 → Option (List Char)
  | _, [] => some []
  | 0, _ => none
  | fuel + 1, byte :: bytes =>
      match front byte bytes with
      | (some char, length) => (decodeFrom fuel (bytes.drop (length - 1))).map (char :: ·)
      | (none, _) => none

def decode? (bytes : List UInt8) : Option String :=
  (decodeFrom bytes.length bytes).map String.ofList

def lossyFrom : Nat → List UInt8 → List Char
  | _, [] => []
  | 0, _ => []
  | fuel + 1, byte :: bytes =>
      let (char, length) := front byte bytes
      char.getD '\ufffd' :: lossyFrom fuel (bytes.drop (length - 1))

def lossy (bytes : List UInt8) : String := String.ofList (lossyFrom bytes.length bytes)

def encode (text : String) : List UInt8 := text.toUTF8.toList

end IngressControl.Utf8
