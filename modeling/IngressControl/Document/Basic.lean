import IngressControl.Decimal.Binary64
import IngressControl.Table
/-!
Documents: what is left of a text once its syntax is read, and the ways to take values out of it.

A scalar carries what it reads as for each kind of value that may be asked of it, so that the
same decoder serves formats whose scalars differ. Decoding either yields a value or fails; it
never says why.
-/

namespace IngressControl

/-- What a scalar reads as, by the kind of value asked for. -/
structure Scalar where
  text : Option String := none
  flag : Option Bool := none
  natural : Option Nat := none
  real : Option Binary64 := none
  variant : Option String := none
  isAbsent : Bool := false
  isBlank : Bool := false
  deriving Inhabited

/-- Whether a list may stand for a record, item by item in the order of the fields. -/
inductive Positional where
  | never
  | complete
  | leading
  deriving DecidableEq

inductive Document where
  | scalar (readings : Scalar)
  | list (items : List Document) (positional : Positional)
  | record (members : List (String × Document)) (variant : Option String)
  deriving Inhabited

/-- A field of a record: given, left out, or past the end of a list that stands for one. -/
inductive Slot where
  | given (value : Document)
  | omitted
  | beyond

namespace Document

/-- A document that can be skipped but not used. -/
def unreadable : Document := .scalar {}

def isAbsent : Document → Bool
  | .scalar readings => readings.isAbsent
  | _ => false

def isBlank : Document → Bool
  | .scalar readings => readings.isBlank
  | _ => false

def text? : Document → Option String
  | .scalar readings => readings.text
  | _ => none

def flag? : Document → Option Bool
  | .scalar readings => readings.flag
  | _ => none

def natural? (bits : Nat) : Document → Option Nat
  | .scalar readings => readings.natural.filter (· < Nat.pow 2 bits)
  | _ => none

def real? : Document → Option Binary64
  | .scalar readings => readings.real
  | _ => none

def variant? : Document → Option String
  | .scalar readings => readings.variant
  | .record _ variant => variant
  | .list .. => none

def optional? {α : Type} (decode : Document → Option α) (document : Document) : Option (Option α) :=
  if document.isAbsent then some none else (decode document).map some

def list? {α : Type} (decode : Document → Option α) : Document → Option (List α)
  | .list items _ => items.mapM decode
  | .scalar readings => if readings.isBlank then some [] else none
  | .record .. => none

/-- Values under texts; the last one under a text counts. -/
def table? {α : Type} (decode : Document → Option α) : Document → Option (Table String α)
  | .record members _ => do
      let rows ← members.mapM fun (key, value) => (decode value).map (key, ·)
      return Table.ofList rows
  | .scalar readings => if readings.isBlank then some {} else none
  | .list .. => none

def positionalSlots : List String → List Document → List Slot
  | [], _ => []
  | _ :: names, [] => .beyond :: positionalSlots names []
  | _ :: names, item :: items => .given item :: positionalSlots names items

/-- The slot of each named field. Other members do not count, but a named one may be given only
once. -/
def fields? (names : List String) : Document → Option (List Slot)
  | .record members _ =>
      names.mapM fun name =>
        match members.filter fun member => member.1 = name with
        | [] => some .omitted
        | [(_, value)] => some (.given value)
        | _ => none
  | .list items positional =>
      match positional with
      | .never => none
      | .leading => some (positionalSlots names items)
      | .complete => if items.length ≤ names.length then some (positionalSlots names items) else none
  | .scalar readings => if readings.isBlank then some (names.map fun _ => .omitted) else none

end Document

namespace Slot

variable {α : Type}

def required (decode : Document → Option α) : Slot → Option α
  | .given value => decode value
  | .omitted => none
  | .beyond => none

def orElse (substitute : α) (decode : Document → Option α) : Slot → Option α
  | .given value => decode value
  | .omitted => some substitute
  | .beyond => some substitute

/-- A field that may be missing, but not from the end of a list. -/
def optional (decode : Document → Option α) : Slot → Option (Option α)
  | .given value => value.optional? decode
  | .omitted => some none
  | .beyond => none

def optionalOr (decode : Document → Option α) : Slot → Option (Option α) :=
  orElse none (Document.optional? decode)

end Slot

end IngressControl
