import IngressControl.Json.Reader
import IngressControl.Settings.Layer
import IngressControl.Toml.Reading
import IngressControl.Yaml.Reading
/-!
The formats of settings files: each text holds a record, whose members are the sections.
-/

namespace IngressControl

inductive SettingsFormat where
  | yaml
  | toml
  | json
  deriving DecidableEq, Repr

/-- What a scalar of a YAML file says. A number with a point is kept as it is written. -/
inductive Yaml.Plain where
  | nothing
  | truth (value : Bool)
  | whole (value : Int)
  | real (text : String)
  | text (value : String)
  deriving DecidableEq, Repr

namespace Yaml.Plain

def whole? (chars : List Char) : Option Int :=
  (Numeral.integer? chars).filter Numeral.isInteger

/-- A whole number in base sixteen or eight, its sign behind the mark of the base. -/
def based? (chars : List Char) : Option Int := do
  let (base, digits) ← match chars with
    | '0' :: 'x' :: digits => some (16, digits)
    | '0' :: 'o' :: digits => some (8, digits)
    | _ => none
  let (negative, digits) := Numeral.signed digits
  let value ← Numeral.digits? base digits
  let value : Int := if negative then -(value : Int) else value
  if Numeral.isInteger value then some value else none

def marked? : List Char → Option Int
  | '+' :: chars => whole? chars
  | chars => based? chars

def isNamedReal (text : String) : Bool :=
  [".inf", ".Inf", ".INF", "+.inf", "+.Inf", "+.INF", "-.inf", "-.Inf", "-.INF", ".nan", ".NaN",
    ".NAN"].contains text

def isReal (text : String) : Bool :=
  isNamedReal text
    || (text.toList.any Char.isDigit && (Numeral.real? text.toList).isSome)

def truth? (text : String) : Option Bool :=
  if text = "true" then some true else if text = "false" then some false else none

def ofText (text : String) : Plain :=
  match marked? text.toList with
  | some value => .whole value
  | none =>
      if ["", "~", "null"].contains text then .nothing
      else
        match Yaml.flag? text with
        | some value => .truth value
        | none =>
            match whole? text.toList with
            | some value => .whole value
            | none => if isReal text then .real text else .text text

def ofTagged (text tag : String) : Plain :=
  if tag = standardTag "bool" then ((truth? text).map .truth).getD .nothing
  else if tag = standardTag "int" then ((whole? text.toList).map .whole).getD .nothing
  else if tag = standardTag "float" then if isReal text then .real text else .nothing
  else if tag = standardTag "null" then .nothing
  else .text text

def ofScalar (text : String) (style : ScalarStyle) (tag : Option String) : Plain :=
  if style ≠ .plain then .text text
  else
    match tag with
    | none => ofText text
    | some tag => ofTagged text tag

def key? : Plain → Option String
  | .nothing => none
  | .truth value => some (if value then "true" else "false")
  | .whole value => some (toString value)
  | .real digits => some digits
  | .text value => some value

/-- The value as a layer. The names of infinity and of no number have none. -/
def layer? : Plain → Option Document
  | .nothing => some Layer.nothing
  | .truth value => some (Layer.truth value)
  | .whole value => some (Layer.whole value)
  | .real digits => (Numeral.real? digits.toList).map Layer.real
  | .text value => some (Layer.text value)

end Yaml.Plain

namespace Yaml

def Node.plainKey? : Node → Option Plain
  | .scalar text style tag => some (Plain.ofScalar text style tag)
  | _ => none

mutual

/-- A node as a layer. No mapping may repeat a key. -/
def Node.layer? : Node → Option Document
  | .scalar text style tag => (Plain.ofScalar text style tag).layer?
  | .sequence items _ => (layers? items).map Layer.list
  | .mapping pairs _ => do
      let members ← pairLayers? [] pairs
      return Layer.record (members.foldl (fun known (key, value) => Layer.put key value known) [])
  | .unfinished => some Layer.nothing

def layers? : List Node → Option (List Document)
  | [] => some []
  | item :: items => do return (← item.layer?) :: (← layers? items)

def pairLayers? (known : List Plain) : List (Node × Node) → Option (List (String × Document))
  | [] => some []
  | (key, value) :: pairs => do
      let plain ← key.plainKey?
      guard !(known.contains plain)
      let value ← value.layer?
      return (← plain.key?, value) :: (← pairLayers? (plain :: known) pairs)

end

def record? (text : String) : Option (List (String × Document)) := do
  match ← Node.ofText? text with
  | none => return []
  | some root =>
      match ← root.layer? with
      | .record members _ => return members
      | _ => none

end Yaml

namespace Json

mutual

/-- A value as a layer. Numbers have to stay within range, and strings have to name texts. -/
def layer? : Json → Option Document
  | .null => some Layer.nothing
  | .boolean value => some (Layer.truth value)
  | .integer value =>
      some (if Numeral.isInteger value then Layer.whole value else Layer.real (.ofInt value))
  | .number value => if value.isFinite then some (Layer.real value) else none
  | .text value => some (Layer.text value)
  | .list items => (layers? items).map Layer.list
  | .object members => do
      let members ← memberLayers? members
      return Layer.record (members.foldl (fun known (key, value) => Layer.put key value known) [])
  | .unreadable => none

def layers? : List Json → Option (List Document)
  | [] => some []
  | item :: items => do return (← item.layer?) :: (← layers? items)

def memberLayers? : List (String × Json) → Option (List (String × Document))
  | [] => some []
  | (key, value) :: members => do
      return (key, ← value.layer?) :: (← memberLayers? members)

end

def record? (text : String) : Option (List (String × Document)) := do
  match ← (← ofText? text).layer? with
  | .record members _ => return members
  | _ => none

end Json

namespace Toml

def Scalar.layer : Scalar → Document
  | .truth value => Layer.truth value
  | .whole value => Layer.whole value
  | .real value => Layer.real value
  | .stamp text => Layer.text text

mutual

def Value.layer : Value → Document
  | .text value => Layer.text value
  | .scalar value => value.layer
  | .list items => Layer.list (layers items)
  | .table members => Layer.record (memberLayers members)

def layers : List Value → List Document
  | [] => []
  | item :: items => item.layer :: layers items

def memberLayers : List (String × Value) → List (String × Document)
  | [] => []
  | (key, value) :: members => (key, value.layer) :: memberLayers members

end

def record? (text : String) : Option (List (String × Document)) := (ofText? text).map memberLayers

end Toml

namespace SettingsFormat

def ofExtension? : String → Option SettingsFormat
  | "yaml" => some .yaml
  | "yml" => some .yaml
  | "toml" => some .toml
  | "json" => some .json
  | _ => none

def record? : SettingsFormat → String → Option (List (String × Document))
  | .yaml => Yaml.record?
  | .toml => Toml.record?
  | .json => Json.record?

end SettingsFormat

end IngressControl
