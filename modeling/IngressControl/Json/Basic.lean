import IngressControl.Decimal.Binary64
/-!
JSON values.

Members keep the order in which they were written, repeated keys included. `unreadable` stands
for a string whose escapes name no text; it may be skipped but not used.
-/

namespace IngressControl

inductive Json where
  | null
  | boolean (value : Bool)
  | integer (value : Int)
  | number (value : Binary64)
  | text (value : String)
  | list (items : List Json)
  | object (members : List (String × Json))
  | unreadable
  deriving Repr, Inhabited

namespace Json

def member? (key : String) : Json → Option Json
  | .object members => (members.reverse.find? fun entry => entry.1 = key).map Prod.snd
  | _ => none

def item? (position : Nat) : Json → Option Json
  | .list items => items[position]?
  | _ => none

def text? : Json → Option String
  | .text value => some value
  | _ => none

end Json

end IngressControl
