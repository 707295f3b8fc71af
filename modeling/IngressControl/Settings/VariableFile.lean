import IngressControl.Settings.Loading
import IngressControl.Text.Blank
/-!
Files of variables: lines `NAME=value`, possibly behind the word `export`.

A value may stand in quotes and then run over several lines. Single quotes keep everything as it
is; elsewhere a backslash escapes, and a dollar sign is followed by the name of a variable whose
value is put in. Variables that are set already keep their values.
-/

namespace IngressControl.VariableFile

/-- Where a line stands between quotes, seen from its end. -/
inductive Quoting where
  | outside
  | blank
  | escape
  | single
  | singleEscape
  | double
  | doubleEscape
  deriving DecidableEq, Repr

def Quoting.opened (char : Char) : Quoting :=
  if char = '\\' then .escape
  else if char = '"' then .double
  else if char = '\'' then .single
  else .outside

def Quoting.next (quoting : Quoting) (char : Char) : Quoting :=
  match quoting with
  | .outside =>
      if Text.isBlank char && char != '\n' && char != '\r' then .blank else opened char
  | .blank => opened char
  | .escape => .outside
  | .single => if char = '\\' then .singleEscape else if char = '\'' then .outside else .single
  | .singleEscape => .single
  | .double => if char = '\\' then .doubleEscape else if char = '"' then .outside else .double
  | .doubleEscape => .double

/-- What is left of a line without its comment, and where its end stands if it has none. A
comment starts right behind a blank. -/
def withoutComment (quoting : Quoting) : List Char → List Char × Option Quoting
  | [] => ([], some quoting)
  | char :: chars =>
      if quoting = .blank && char = '#' then ([], none)
      else
        let (kept, quoting) := withoutComment (quoting.next char) chars
        (char :: kept, quoting)

def withoutBreak (line : List Char) : List Char :=
  match line.reverse with
  | '\n' :: '\r' :: rest => rest.reverse
  | '\n' :: rest => rest.reverse
  | _ => line

/-- Joins lines that end between quotes with those behind them. What is no text, or ends between
quotes, gives nothing, and so does all behind it. -/
def joined (quoting : Quoting) (before : List Char) :
    List (Option (List Char)) → List (Option (List Char))
  | [] => if quoting = .outside then [] else [none]
  | none :: _ => [none]
  | some line :: rest =>
      -- A line that is all comment is dropped, quotes in it or not.
      if (Text.trimStart (before ++ line)).head? = some '#' then joined .outside [] rest
      else
        match withoutComment quoting line with
        | (kept, none) => some (before ++ kept) :: joined .outside [] rest
        | (_, some .outside) => some (withoutBreak (before ++ line)) :: joined .outside [] rest
        | (_, some quoting) => joined quoting (before ++ line) rest

def lines (line : List UInt8) : List UInt8 → List (List UInt8)
  | [] => if line.isEmpty then [] else [line.reverse]
  | byte :: bytes =>
      if byte = 0x0A then (byte :: line).reverse :: lines [] bytes else lines (byte :: line) bytes

def isNameStart (char : Char) : Bool := char.isAlpha || char = '_'

def isNameChar (char : Char) : Bool := char.isAlphanum || char = '_' || char = '.'

def name? (chars : List Char) : Option (String × List Char) := do
  guard (chars.head?.any isNameStart)
  let (name, rest) := chars.span isNameChar
  return (String.ofList name, Text.trimStart rest)

inductive Mode where
  | open (isQuoted : Bool)
  | escape (isQuoted : Bool)
  | single
  | name (isQuoted isBraced : Bool) (name : List Char)
  | ended

def expansion (environment : Environment) (name : List Char) : List Char :=
  ((environment.get? (String.ofList name)).getD "").toList

def isPlainNameChar (char : Char) : Bool :=
  char.isAlphanum || (0x80 ≤ char.toNat && !Text.isBlank char)

def value? (environment : Environment) (mode : Mode) : List Char → Option (List Char)
  | [] =>
      match mode with
      | .open true => none
      | .escape true => none
      | .single => none
      | .name true _ _ => none
      | .name _ true _ => none
      | .name false false name => some (expansion environment name)
      | _ => some []
  | char :: chars =>
      match mode with
      | .ended =>
          if char = ' ' || char = '\t' then value? environment .ended chars
          else if char = '#' then some []
          else none
      | .escape isQuoted =>
          if char = 'n' then (value? environment (.open isQuoted) chars).map ('\n' :: ·)
          else if ['\\', '\'', '"', '$', ' '].contains char then
            (value? environment (.open isQuoted) chars).map (char :: ·)
          else none
      | .single =>
          if char = '\'' then value? environment (.open false) chars
          else (value? environment .single chars).map (char :: ·)
      | .name isQuoted isBraced name =>
          if isPlainNameChar char then
            value? environment (.name isQuoted isBraced (name ++ [char])) chars
          else if isBraced then
            if char = '\x7d' then
              (value? environment (.open isQuoted) chars).map (expansion environment name ++ ·)
            else value? environment (.name isQuoted true (name ++ [char])) chars
          else if char = '\x7b' && name.isEmpty then
            value? environment (.name isQuoted true []) chars
          else if char = '$' then
            (value? environment (.name isQuoted false []) chars).map
              (expansion environment name ++ ·)
          else
            (value? environment (.open isQuoted) chars).map
              (expansion environment name ++ char :: ·)
      | .open isQuoted =>
          if char = '$' then value? environment (.name isQuoted false []) chars
          else if char = '\\' then value? environment (.escape isQuoted) chars
          else if char = '"' then value? environment (.open !isQuoted) chars
          else if isQuoted then (value? environment (.open true) chars).map (char :: ·)
          else if char = '\'' then value? environment .single chars
          else if char = ' ' || char = '\t' then value? environment .ended chars
          else (value? environment (.open false) chars).map (char :: ·)

/-- The name of a line's variable, and what follows the equals sign. The word `export` may be a
name itself. -/
def assignment? (chars : List Char) : Option (String × List Char) := do
  let (name, rest) ← name? chars
  match rest with
  | '=' :: rest => return (name, Text.trimStart rest)
  | rest => do
      guard (name = "export")
      let (name, rest) ← name? rest
      match rest with
      | '=' :: rest => return (name, Text.trimStart rest)
      | _ => none

def set (environment : Environment) (name value : String) : Environment :=
  if (environment.get? name).isSome then environment else environment ++ [(name, value)]

def setLine? (environment : Environment) (line : List Char) : Option Environment :=
  match Text.trim line with
  | [] => some environment
  | '#' :: _ => some environment
  | chars => do
      let (name, rest) ← assignment? chars
      match rest with
      | [] => return set environment name ""
      | '#' :: _ => return set environment name ""
      | rest => return set environment name (String.ofList (← value? environment (.open false) rest))

/-- Sets the variables of lines up to the first that is malformed, and says whether there was
none. -/
def setLines (environment : Environment) : List (Option (List Char)) → Environment × Bool
  | [] => (environment, true)
  | line :: rest =>
      match line.bind (setLine? environment) with
      | some environment => setLines environment rest
      | none => (environment, false)

def load (environment : Environment) (bytes : List UInt8) : Environment × Bool :=
  let bytes :=
    match bytes with
    | 0xEF :: 0xBB :: 0xBF :: rest => rest
    | bytes => bytes
  let lines := (lines [] bytes).map fun line => (Utf8.decode? line).map String.toList
  setLines environment (joined .outside [] lines)

end IngressControl.VariableFile
