import IngressControl.Document.Basic
import IngressControl.Yaml.Node
/-!
YAML documents as documents to decode.

Any scalar reads as a text. Only plain scalars read as truth values, numbers or nothing. A tag of
one's own names a choice.
-/

namespace IngressControl.Yaml

def isNull (text : String) : Bool := ["~", "null", "Null", "NULL"].contains text

def flag? (text : String) : Option Bool :=
  if ["true", "True", "TRUE"].contains text then some true
  else if ["false", "False", "FALSE"].contains text then some false
  else none

def based? : List Char → Option (Nat × List Char)
  | '0' :: 'x' :: digits => some (16, digits)
  | '0' :: 'o' :: digits => some (8, digits)
  | '0' :: 'b' :: digits => some (2, digits)
  | _ => none

def natural? (text : String) : Option Nat :=
  let chars :=
    match text.toList with
    | '+' :: chars => chars
    | chars => chars
  let value :=
    match based? chars with
    | some (base, digits) => Numeral.digits? base digits
    | none =>
        match chars with
        | '0' :: _ :: _ => none
        | digits => Numeral.digits? 10 digits
  value.filter (· ≤ Numeral.largestNatural)

def real? (text : String) : Option Binary64 :=
  let chars :=
    match text.toList with
    | '+' :: '+' :: _ => []
    | '+' :: '-' :: _ => []
    | '+' :: chars => chars
    | chars => chars
  if [".inf", ".Inf", ".INF"].contains (String.ofList chars) then some (.infinite false)
  else if ["-.inf", "-.Inf", "-.INF"].contains text then some (.infinite true)
  else if [".nan", ".NaN", ".NAN"].contains text then some .nan
  else (Numeral.real? chars).filter Binary64.isFinite

def tagVariant? (tag : Option String) : Option String :=
  match tag.map String.toList with
  | some ['!'] => some "!"
  | some ('!' :: name) => some (String.ofList name)
  | _ => none

def standardTag (name : String) : String := "tag:yaml.org,2002:" ++ name

def scalarReadings (text : String) (style : ScalarStyle) (tag : Option String) : Scalar :=
  let isPlain := style = .plain
  let readsAs (name : String) : Bool :=
    isPlain || (style = .literal && tag = some (standardTag name))
  let isNothing := isPlain && (text.isEmpty || isNull text)
  { text := some text
    flag := if readsAs "bool" then flag? text else none
    natural := if readsAs "int" then natural? text else none
    real := if readsAs "float" then real? text else none
    variant :=
      match tagVariant? tag with
      | some name => if isNothing then some name else none
      | none => some text
    isAbsent :=
      match tag with
      | none => isNothing
      | some tag => isPlain && tag = standardTag "null" && isNull text
    isBlank := isPlain && text.isEmpty }

def Node.keyText? : Node → Option String
  | .scalar text _ _ => some text
  | _ => none

mutual

def Node.document : Node → Document
  | .scalar text style tag => .scalar (scalarReadings text style tag)
  | .sequence items _ => .list (documents items) .never
  | .mapping pairs _ =>
      match pairDocuments pairs with
      | some members => .record members none
      | none => .unreadable
  | .unfinished => .unreadable

def documents : List Node → List Document
  | [] => []
  | item :: items => item.document :: documents items

def pairDocuments : List (Node × Node) → Option (List (String × Document))
  | [] => some []
  | (key, value) :: pairs =>
      match key.keyText?, pairDocuments pairs with
      | some key, some members => some ((key, value.document) :: members)
      | _, _ => none

end

/-- The document in a text. A text without one reads as an empty list or record. -/
def document? (text : String) : Option Document :=
  (Node.ofText? text).map fun root => root.elim (.scalar { isBlank := true }) Node.document

end IngressControl.Yaml
