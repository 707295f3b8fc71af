import IngressControl.Document.Basic
import IngressControl.Json.Basic
/-!
Closed choices: types with a few values, each under one fixed name.
-/

namespace IngressControl

class Choice (α : Type) where
  label : String
  values : List α
  name : α → String

namespace Choice

variable {α : Type} [Choice α]

def ofName? (text : String) : Option α := (values (α := α)).find? fun value => name value = text

def ofName (text : String) : Except String α :=
  match ofName? text with
  | some value => .ok value
  | none => .error ("Invalid " ++ label α ++ ": " ++ text)

def ofDocument? (document : Document) : Option α := document.variant?.bind ofName?

def json (value : α) : Json := .text (name value)

end Choice

end IngressControl
