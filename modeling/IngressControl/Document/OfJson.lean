import IngressControl.Document.Basic
import IngressControl.Json.Basic
/-!
JSON values as documents. Each kind of value is read from its own kind of scalar only, except
that a whole number also serves where any number does.
-/

namespace IngressControl.Json

def soleVariant? : List (String × Json) → Option String
  | [(key, .null)] => some key
  | _ => none

mutual

def document : Json → Document
  | .null => .scalar { isAbsent := true }
  | .boolean value => .scalar { flag := some value }
  | .integer value =>
      .scalar
        { natural := if 0 ≤ value then some value.toNat else none
          real := some (Binary64.ofInt value) }
  | .number value => .scalar { real := if value.isFinite then some value else none }
  | .text value => .scalar { text := some value, variant := some value }
  | .list items => .list (documents items) .complete
  | .object members => .record (memberDocuments members) (soleVariant? members)
  | .unreadable => .unreadable

def documents : List Json → List Document
  | [] => []
  | item :: items => item.document :: documents items

def memberDocuments : List (String × Json) → List (String × Document)
  | [] => []
  | (key, value) :: members => (key, value.document) :: memberDocuments members

end

end IngressControl.Json
