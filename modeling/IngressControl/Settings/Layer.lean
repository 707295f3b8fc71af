import IngressControl.Decimal.Numeral
import IngressControl.Decimal.Shortest
import IngressControl.Document.Basic
/-!
Layers of settings: documents whose scalars read as whatever is asked for, and the placing of one
over another.

A number or a truth value reads as text, a text that spells one reads as that, and any number
reads as the nearest whole one. Records lie over records member by member; anything else covers
what is below it.
-/

namespace IngressControl.Layer

def clamped (value : Int) : Nat := min value.toNat Numeral.largestNatural

/-- The whole number in place of one with a fraction. What is no number is zero. -/
def wholeOf (value : Binary64) : Nat :=
  match value with
  | .nan => 0
  | .infinite negative => if negative then 0 else Numeral.largestNatural
  | value => clamped (value.round.getD 0)

def flagOfText? (text : String) : Option Bool :=
  match Text.lowered text with
  | "1" => some true
  | "true" => some true
  | "on" => some true
  | "yes" => some true
  | "0" => some false
  | "false" => some false
  | "off" => some false
  | "no" => some false
  | _ => none

/-- A number, or a truth value in words as one or zero. -/
def naturalOfText? (text : String) : Option Nat :=
  match Text.lowered text with
  | "true" => some 1
  | "on" => some 1
  | "yes" => some 1
  | "false" => some 0
  | "off" => some 0
  | "no" => some 0
  | _ => Numeral.natural? text.toList

def nothing : Document := .scalar { isAbsent := true }

def truth (value : Bool) : Document :=
  .scalar
    { text := some (if value then "true" else "false")
      flag := some value
      natural := some value.toNat }

def whole (value : Int) : Document :=
  .scalar
    { text := some (toString value)
      flag := some (value ≠ 0)
      natural := if 0 ≤ value then some value.toNat else none }

def real (value : Binary64) : Document :=
  .scalar
    { text := some value.plainText
      flag := some !value.isZero
      natural := some (wholeOf value) }

def text (value : String) : Document :=
  .scalar
    { text := some value
      flag := flagOfText? value
      natural := naturalOfText? value
      variant := some value }

def list (items : List Document) : Document := .list items .leading

def record (members : List (String × Document)) : Document :=
  .record members <|
    match members with
    | [(key, _)] => some key
    | _ => none

def members : Document → List (String × Document)
  | .record members _ => members
  | _ => []

def items : Document → List Document
  | .list items _ => items
  | _ => []

def member (key : String) (members : List (String × Document)) : Document :=
  ((members.find? fun entry => entry.1 = key).map Prod.snd).getD nothing

def put (key : String) (value : Document) : List (String × Document) → List (String × Document)
  | [] => [(key, value)]
  | (stored, old) :: rest =>
      if stored = key then (key, value) :: rest else (stored, old) :: put key value rest

mutual

def covering (below : Document) : Document → Document
  | .record above _ => record (coverMembers (members below) above)
  | above => above

def coverMembers (below : List (String × Document)) :
    List (String × Document) → List (String × Document)
  | [] => below
  | (key, value) :: rest => coverMembers (put key (covering (member key below) value) below) rest

end

/-- A step into a document: to a member, or to an item, counted from the end if negative. -/
inductive Step where
  | member (key : String)
  | item (position : Int)
  deriving DecidableEq, Repr

def reaching (items : List Document) (position : Int) : List Document × Nat :=
  if 0 ≤ position then
    (items ++ List.replicate (position.toNat + 1 - items.length) nothing, position.toNat)
  else
    let missing := position.natAbs - items.length
    (List.replicate missing nothing ++ items, items.length - position.natAbs)

/-- Places a value over what is at the end of a path. Whatever cannot be stepped into on the way
is covered. -/
def place (value : Document) : List Step → Document → Document
  | [], below => covering below value
  | .member key :: path, below =>
      record (put key (place value path (member key (members below))) (members below))
  | .item position :: path, below =>
      let (items, index) := reaching (items below) position
      list (items.set index (place value path (items[index]?.getD nothing)))

def isKeyChar (char : Char) : Bool := char.isAlphanum || char = '_' || char = '-'

def position? (chars : List Char) : Option (Int × List Char) := do
  let isBlank (char : Char) : Bool := char = ' ' || char = '\t'
  let (inside, rest) ← Text.cutAt? ']' chars
  let inside := ((inside.dropWhile isBlank).reverse.dropWhile isBlank).reverse
  guard (inside.head? != some '+')
  return (← (Numeral.integer? inside).filter Numeral.isInteger, rest)

def stepsFrom? : Nat → List Char → Option (List Step)
  | _, [] => some []
  | 0, _ => none
  | fuel + 1, mark :: chars =>
      match mark with
      | '.' =>
          match chars.span isKeyChar with
          | ([], _) => none
          | (key, rest) => (stepsFrom? fuel rest).map (.member (String.ofList key) :: ·)
      | '[' => do
          let (position, rest) ← position? chars
          return .item position :: (← stepsFrom? fuel rest)
      | _ => none

/-- The path that a key spells: keys with dots between them and positions in brackets. A key that
spells no path is a single step. -/
def pathOf (key : String) : List Step :=
  match key.toList.span isKeyChar with
  | ([], _) => [.member key]
  | (first, rest) =>
      match stepsFrom? rest.length rest with
      | some steps => .member (String.ofList first) :: steps
      | none => [.member key]

def placeAll (below : Document) (members : List (String × Document)) : Document :=
  members.foldl (fun below (key, value) => place value (pathOf key) below) below

end IngressControl.Layer
