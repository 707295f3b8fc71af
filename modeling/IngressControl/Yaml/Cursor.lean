/-!
A place in a YAML text: the characters still to come, and where they stand.
-/

namespace IngressControl.Yaml

def isPrintable (char : Char) : Bool :=
  let code := char.toNat
  code = 0x09 || code = 0x0A || code = 0x0D || (0x20 ≤ code && code ≤ 0x7E) || code = 0x85
    || (0xA0 ≤ code && code ≤ 0xD7FF) || (0xE000 ≤ code && code ≤ 0xFFFD) || 0x10000 ≤ code

def isSpace (char : Char) : Bool := char = ' ' || char = '\t'

def isBreak (char : Char) : Bool :=
  char = '\n' || char = '\r' || char = '\u0085' || char = '\u2028' || char = '\u2029'

def isNameChar (char : Char) : Bool := char.isAlphanum || char = '-' || char = '_'

structure Cursor where
  rest : List Char
  index : Nat := 0
  line : Nat := 0
  column : Nat := 0

namespace Cursor

def atEnd (cursor : Cursor) : Bool := cursor.rest.isEmpty

def ahead (cursor : Cursor) (distance : Nat) (wanted : Char → Bool) : Bool :=
  ((cursor.rest.drop distance).head?).any wanted

def gapAhead (cursor : Cursor) (distance : Nat) : Bool :=
  match (cursor.rest.drop distance).head? with
  | none => true
  | some char => isSpace char || isBreak char

def isAt (cursor : Cursor) (char : Char) : Bool := cursor.ahead 0 (· = char)

def advance (cursor : Cursor) (count : Nat) : Cursor :=
  { cursor with
    rest := cursor.rest.drop count
    index := cursor.index + count
    column := cursor.column + count }

def span (cursor : Cursor) (wanted : Char → Bool) : List Char × Cursor :=
  let taken := cursor.rest.takeWhile wanted
  (taken, cursor.advance taken.length)

def skip (cursor : Cursor) (wanted : Char → Bool) : Cursor := (cursor.span wanted).2

/-- What a line break at the cursor contributes to a text, and the cursor behind it. The breaks
of ASCII and the next-line character count as a newline. -/
def takeBreak (cursor : Cursor) : List Char × Cursor :=
  let behind (count : Nat) : Cursor :=
    { cursor with
      rest := cursor.rest.drop count, index := cursor.index + count
      line := cursor.line + 1, column := 0 }
  match cursor.rest with
  | '\r' :: '\n' :: _ => (['\n'], behind 2)
  | char :: _ =>
      if char = '\u2028' ∨ char = '\u2029' then ([char], behind 1)
      else if isBreak char then (['\n'], behind 1)
      else ([], cursor)
  | [] => ([], cursor)

def skipBreak (cursor : Cursor) : Cursor := cursor.takeBreak.2

def atDocumentMark (cursor : Cursor) : Bool :=
  cursor.column = 0 && cursor.gapAhead 3
    && (cursor.rest.take 3 = ['-', '-', '-'] || cursor.rest.take 3 = ['.', '.', '.'])

def skipComment (cursor : Cursor) : Cursor :=
  if cursor.isAt '#' then cursor.skip fun char => !isBreak char else cursor

end Cursor

end IngressControl.Yaml
