import IngressControl.Toml.Scalar
import IngressControl.Toml.Text
/-!
TOML texts as tables of values.

A table may be opened by a header once. Tables on the way to it, and those that dotted keys make,
are there without being opened; a header may still open the former, and dotted keys may add to
the latter. Everything between braces or brackets is closed where it ends.
-/

namespace IngressControl.Toml

inductive Value where
  | text (value : String)
  | scalar (value : Scalar)
  | list (items : List Value)
  | table (members : List (String × Value))
  deriving Repr

/-- How a table came about: by its own header, on the way to another table, or by dotted keys. -/
inductive Origin where
  | header
  | path
  | dotted
  deriving DecidableEq, Repr

inductive Item where
  | value (value : Value)
  | table (origin : Origin) (members : List (String × Item))
  | rows (rows : List (List (String × Item)))
  deriving Repr

abbrev Items := List (String × Item)

mutual

def Item.closed : Item → Value
  | .value value => value
  | .table _ members => .table (closedMembers members)
  | .rows rows => .list (closedRows rows)

def closedMembers : Items → List (String × Value)
  | [] => []
  | (key, item) :: members => (key, item.closed) :: closedMembers members

def closedRows : List Items → List Value
  | [] => []
  | row :: rows => .table (closedMembers row) :: closedRows rows

end

namespace Items

def item? (items : Items) (key : String) : Option Item :=
  (items.find? fun entry => entry.1 = key).map Prod.snd

def replace (items : Items) (key : String) (item : Item) : Items :=
  items.map fun entry => if entry.1 = key then (key, item) else entry

def addNew? (items : Items) (key : String) (item : Item) : Option Items :=
  if (items.item? key).isSome then none else some (items ++ [(key, item)])

/-- Changes the table at the end of a path, in the last row wherever there are rows. Dotted keys
do not lead through tables that a header opened. -/
def at? (isDotted : Bool) (change : Origin → Items → Option Items) :
    List String → Origin → Items → Option Items
  | [], origin, items => change origin items
  | key :: rest, _, items =>
      match items.item? key with
      | none => do
          let origin := if isDotted then Origin.dotted else .path
          return items ++ [(key, .table origin (← at? isDotted change rest origin []))]
      | some (.table origin members) => do
          guard !(isDotted && origin = .header)
          return items.replace key (.table origin (← at? isDotted change rest origin members))
      | some (.rows rows) => do
          let last ← at? isDotted change rest .header (rows.getLast?.getD [])
          return items.replace key (.rows (rows.dropLast ++ [last]))
      | some (.value _) => none

def assign? (items : Items) (keys : List String) (value : Value) : Option Items := do
  let key ← keys.getLast?
  let path := keys.dropLast
  let add (origin : Origin) (items : Items) : Option Items := do
    guard (path.isEmpty || origin = .dotted)
    items.addNew? key (.value value)
  at? true add path .header items

def openTable? (items : Items) (keys : List String) : Option Items := do
  let key ← keys.getLast?
  let change (_ : Origin) (items : Items) : Option Items :=
    match items.item? key with
    | none => some (items ++ [(key, .table .header [])])
    | some (.table .path members) => some (items.replace key (.table .header members))
    | some _ => none
  at? false change keys.dropLast .header items

def openRow? (items : Items) (keys : List String) : Option Items := do
  let key ← keys.getLast?
  let change (_ : Origin) (items : Items) : Option Items :=
    match items.item? key with
    | none => some (items ++ [(key, .rows [[]])])
    | some (.rows rows) => some (items.replace key (.rows (rows ++ [[]])))
    | some _ => none
  at? false change keys.dropLast .header items

end Items

mutual

def value? : Nat → List Char → Option (Value × List Char)
  | 0, _ => none
  | fuel + 1, chars =>
      match chars with
      | [] => none
      | '[' :: rest => do
          let (items, rest) ← items? fuel rest
          return (.list items, rest)
      | '\x7b' :: rest =>
          match skipSpaces rest with
          | '\x7d' :: rest => some (.table [], rest)
          | rest => do
              let (members, rest) ← members? fuel [] rest
              return (.table (closedMembers members), rest)
      | char :: _ =>
          if char = '"' ∨ char = '\'' then
            (string? chars).map fun (text, rest) => (.text text, rest)
          else do
            let (found, rest) := word chars
            return (.scalar (← Scalar.ofWord? found), rest)

def items? : Nat → List Char → Option (List Value × List Char)
  | 0, _ => none
  | fuel + 1, chars => do
      match ← skipLines? (chars.length + 1) chars with
      | ']' :: rest => return ([], rest)
      | rest => do
          let (item, rest) ← value? fuel rest
          match ← skipLines? (rest.length + 1) rest with
          | ',' :: rest => do
              let (items, rest) ← items? fuel rest
              return (item :: items, rest)
          | ']' :: rest => return ([item], rest)
          | _ => none

def members? : Nat → Items → List Char → Option (Items × List Char)
  | 0, _, _ => none
  | fuel + 1, known, chars => do
      let (keys, rest) ← key? (chars.length + 1) chars
      let '=' :: rest := rest | none
      let (value, rest) ← value? fuel (skipSpaces rest)
      let known ← known.assign? keys value
      match skipSpaces rest with
      | ',' :: rest => members? fuel known rest
      | '\x7d' :: rest => return (known, rest)
      | _ => none

end

structure Reading where
  root : Items := []
  path : List String := []

def header? (reading : Reading) (chars : List Char) : Option (Reading × List Char) :=
  match chars with
  | '[' :: rest => do
      let (path, rest) ← key? (rest.length + 1) rest
      let ']' :: ']' :: rest := rest | none
      return ({ root := ← reading.root.openRow? path, path }, ← endLine? rest)
  | rest => do
      let (path, rest) ← key? (rest.length + 1) rest
      let ']' :: rest := rest | none
      return ({ root := ← reading.root.openTable? path, path }, ← endLine? rest)

def assignment? (reading : Reading) (chars : List Char) : Option (Reading × List Char) := do
  let (keys, rest) ← key? (chars.length + 1) chars
  let '=' :: rest := rest | none
  let rest := skipSpaces rest
  let (value, rest) ← value? (rest.length + 1) rest
  let add (_ : Origin) (items : Items) : Option Items := items.assign? keys value
  let root ← Items.at? false add reading.path .header reading.root
  return ({ reading with root }, ← endLine? rest)

def statements? : Nat → Reading → List Char → Option Reading
  | 0, _, _ => none
  | fuel + 1, reading, chars => do
      match ← skipLines? (chars.length + 1) chars with
      | [] => return reading
      | '[' :: rest => do
          let (reading, rest) ← header? reading rest
          statements? fuel reading rest
      | rest => do
          let (reading, rest) ← assignment? reading rest
          statements? fuel reading rest

def ofText? (text : String) : Option (List (String × Value)) := do
  let chars := text.toList
  return closedMembers (← statements? (chars.length + 1) {} chars).root

end IngressControl.Toml
