import IngressControl.Json.Basic
import IngressControl.Decimal.Shortest
import IngressControl.Text.Hex
/-!
The compact text of a JSON value, without blanks.
-/

namespace IngressControl.Json

/-- A character inside quotes: only the quote, the backslash and controls are escaped. -/
def escaped (char : Char) : List Char :=
  match char with
  | '"' => ['\\', '"']
  | '\\' => ['\\', '\\']
  | '\x08' => ['\\', 'b']
  | '\x0c' => ['\\', 'f']
  | '\n' => ['\\', 'n']
  | '\r' => ['\\', 'r']
  | '\t' => ['\\', 't']
  | char =>
      if char.toNat < 0x20 then
        ['\\', 'u', '0', '0', Text.hexDigit (char.toNat / 16), Text.hexDigit (char.toNat % 16)]
      else [char]

def quoted (text : String) : List Char := '"' :: (text.toList.flatMap escaped ++ ['"'])

mutual

def chars : Json → List Char
  | .null => "null".toList
  | .boolean value => (if value then "true" else "false").toList
  | .integer value => (toString value).toList
  | .number value => value.jsonText.toList
  | .text value => quoted value
  | .list items => '[' :: itemChars items
  | .object members => '\x7b' :: memberChars members
  | .unreadable => "null".toList

def itemChars : List Json → List Char
  | [] => [']']
  | [item] => item.chars ++ [']']
  | item :: items => item.chars ++ ',' :: itemChars items

def memberChars : List (String × Json) → List Char
  | [] => ['\x7d']
  | [(key, value)] => quoted key ++ ':' :: value.chars ++ ['\x7d']
  | (key, value) :: members => quoted key ++ ':' :: value.chars ++ ',' :: memberChars members

end

def compact (value : Json) : String := String.ofList value.chars

end IngressControl.Json
