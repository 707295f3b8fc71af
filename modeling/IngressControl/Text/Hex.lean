import IngressControl.Decimal.Numeral
/-!
Bytes as pairs of hexadecimal digits in lower case.
-/

namespace IngressControl.Text

def hexDigit (value : Nat) : Char :=
  if value < 10 then Char.ofNat ('0'.toNat + value) else Char.ofNat ('a'.toNat + value - 10)

def hex (bytes : List UInt8) : String :=
  String.ofList <| bytes.flatMap fun byte => [hexDigit (byte.toNat / 16), hexDigit (byte.toNat % 16)]

def unhex? : List Char → Option (List UInt8)
  | [] => some []
  | high :: low :: chars => do
      let value ← Numeral.digits? 16 [high, low]
      return UInt8.ofNat value :: (← unhex? chars)
  | [_] => none

end IngressControl.Text
