import IngressControl.Yaml.Cursor
import IngressControl.Decimal.Numeral
/-!
The texts of YAML scalars in their three styles: plain, quoted and block.

Inside a scalar a single line break counts as a blank, and of several the first is dropped.
-/

namespace IngressControl.Yaml

/-- Line breaks met since the last character of a text: the first, and those after it. -/
structure Gap where
  first : List Char := []
  others : List Char := []
  blanks : List Char := []
  broken : Bool := false

namespace Gap

def folded (gap : Gap) : List Char :=
  if gap.broken then
    if gap.first = ['\n'] then if gap.others.isEmpty then [' '] else gap.others
    else gap.first ++ gap.others
  else gap.blanks

def addBreak (gap : Gap) (found : List Char) : Gap :=
  if gap.broken then { gap with others := gap.others ++ found }
  else { gap with first := found, blanks := [], broken := true }

def addBlank (gap : Gap) (char : Char) : Gap :=
  if gap.broken then gap else { gap with blanks := gap.blanks ++ [char] }

end Gap

/-- White space and line breaks; `refuses` says where a blank may not stand. -/
def scanGap (refuses : Cursor → Gap → Bool) : Nat → Gap → Cursor → Option (Gap × Cursor)
  | 0, _, _ => none
  | fuel + 1, gap, cursor =>
      match cursor.rest with
      | [] => some (gap, cursor)
      | char :: _ =>
          if isSpace char then
            if refuses cursor gap then none
            else scanGap refuses fuel (gap.addBlank char) (cursor.advance 1)
          else if isBreak char then
            let (found, cursor) := cursor.takeBreak
            scanGap refuses fuel (gap.addBreak found) cursor
          else some (gap, cursor)

section Quoted

def escapeChar? : Char → Option Char
  | '0' => some '\x00'
  | 'a' => some '\x07'
  | 'b' => some '\x08'
  | 't' => some '\t'
  | '\t' => some '\t'
  | 'n' => some '\n'
  | 'v' => some '\x0b'
  | 'f' => some '\x0c'
  | 'r' => some '\r'
  | 'e' => some '\x1b'
  | ' ' => some ' '
  | '"' => some '"'
  | '/' => some '/'
  | '\\' => some '\\'
  | 'N' => some '\u0085'
  | '_' => some '\u00a0'
  | 'L' => some '\u2028'
  | 'P' => some '\u2029'
  | _ => none

def escapeLength? : Char → Option Nat
  | 'x' => some 2
  | 'u' => some 4
  | 'U' => some 8
  | _ => none

def scanEscape (cursor : Cursor) : Option (Char × Cursor) := do
  let letter ← cursor.rest.head?
  match escapeChar? letter with
  | some char => return (char, cursor.advance 1)
  | none =>
      let length ← escapeLength? letter
      let digits := (cursor.rest.drop 1).take length
      guard (digits.length = length)
      let code ← Numeral.digits? 16 digits
      guard (code ≤ 0x10FFFF ∧ ¬(0xD800 ≤ code ∧ code ≤ 0xDFFF))
      return (Char.ofNat code, cursor.advance (length + 1))

/-- The characters up to white space, a break or the closing quote, and whether an escaped break
ended them. -/
def scanRun (single : Bool) : Nat → List Char → Cursor → Option (List Char × Bool × Cursor)
  | 0, _, _ => none
  | fuel + 1, text, cursor =>
      match cursor.rest with
      | [] => some (text, false, cursor)
      | char :: rest =>
          if isSpace char || isBreak char then some (text, false, cursor)
          else if single then
            if char = '\'' then
              if rest.head? = some '\'' then scanRun single fuel (text ++ ['\'']) (cursor.advance 2)
              else some (text, false, cursor)
            else scanRun single fuel (text ++ [char]) (cursor.advance 1)
          else if char = '"' then some (text, false, cursor)
          else if char = '\\' then
            if rest.head?.any isBreak then some (text, true, (cursor.advance 1).skipBreak)
            else
              match scanEscape (cursor.advance 1) with
              | none => none
              | some (char, cursor) => scanRun single fuel (text ++ [char]) cursor
          else scanRun single fuel (text ++ [char]) (cursor.advance 1)

def scanQuoted (single : Bool) : Nat → List Char → Cursor → Option (List Char × Cursor)
  | 0, _, _ => none
  | fuel + 1, text, cursor =>
      if cursor.atDocumentMark || cursor.atEnd then none
      else do
        let (text, escapedBreak, cursor) ← scanRun single (cursor.rest.length + 1) text cursor
        if !escapedBreak && cursor.isAt (if single then '\'' else '"') then
          return (text, cursor.advance 1)
        -- An escaped break counts as the first of its gap but comes to nothing itself.
        let (gap, cursor) ← scanGap (fun _ _ => false) (cursor.rest.length + 1)
          { broken := escapedBreak } cursor
        scanQuoted single fuel (text ++ gap.folded) cursor

end Quoted

section Plain

def isFlowMark (char : Char) : Bool :=
  char = ',' || char = '[' || char = ']' || char = '\x7b' || char = '\x7d'

/-- Characters of a plain text up to a gap or an indicator. Inside brackets a colon may not stand
directly before another indicator. -/
def scanPlainRun (flow : Bool) : Nat → List Char → Cursor → Option (List Char × Cursor)
  | 0, _, _ => none
  | fuel + 1, text, cursor =>
      match cursor.rest with
      | [] => some (text, cursor)
      | char :: rest =>
          if isSpace char || isBreak char then some (text, cursor)
          else if flow && char = ':' && rest.head?.any fun next => isFlowMark next || next = '?' then
            none
          else if (char = ':' && cursor.gapAhead 1) || (flow && isFlowMark char) then
            some (text, cursor)
          else scanPlainRun flow fuel (text ++ [char]) (cursor.advance 1)

/-- A plain text and whether line breaks follow it. In block context its lines are indented by at
least `indent`. -/
def scanPlain (flow : Bool) (indent : Int) : Nat → List Char → Gap → Cursor →
    Option (List Char × Bool × Cursor)
  | 0, _, _, _ => none
  | fuel + 1, text, gap, cursor =>
      if cursor.atDocumentMark || cursor.isAt '#' then some (text, gap.broken, cursor)
      else do
        let (run, cursor) ← scanPlainRun flow (cursor.rest.length + 1) [] cursor
        -- The gap in front of a run is known to lie inside the text only now.
        let (text, gap) :=
          if run.isEmpty then (text, gap) else (text ++ gap.folded ++ run, ({} : Gap))
        if !cursor.ahead 0 fun char => isSpace char || isBreak char then
          return (text, gap.broken, cursor)
        let refuses (cursor : Cursor) (gap : Gap) : Bool :=
          gap.broken && (cursor.column : Int) < indent && cursor.isAt '\t'
        let (gap, cursor) ← scanGap refuses (cursor.rest.length + 1) gap cursor
        if !flow && (cursor.column : Int) < indent then return (text, gap.broken, cursor)
        scanPlain flow indent fuel text gap cursor

end Plain

section Block

inductive Chomping where
  | strip
  | clip
  | keep
  deriving DecidableEq

/-- Indentation and empty lines in front of a line of a block text. An indent of zero is not yet
known; the widest line seen settles it. -/
def scanIndent (indent : Nat) : Nat → Nat → List Char → Cursor →
    Option (Nat × List Char × Cursor)
  | 0, _, _, _ => none
  | fuel + 1, widest, breaks, cursor =>
      let spaces := (cursor.rest.takeWhile (· = ' ')).length
      let cursor :=
        cursor.advance (if indent = 0 then spaces else min spaces (indent - cursor.column))
      let widest := max widest cursor.column
      if (indent = 0 || cursor.column < indent) && cursor.isAt '\t' then none
      else if cursor.ahead 0 isBreak then
        let (found, cursor) := cursor.takeBreak
        scanIndent indent fuel widest (breaks ++ found) cursor
      else some (widest, breaks, cursor)

structure BlockText where
  text : List Char := []
  leading : List Char := []
  trailing : List Char := []
  blankLine : Bool := false

/-- The text with the breaks that come before another line. Two lines that do not start with a
blank are joined when the text is folded. -/
def BlockText.joined (block : BlockText) (literal blankNext : Bool) : List Char :=
  if !literal && block.leading = ['\n'] && !block.blankLine && !blankNext then
    block.text ++ (if block.trailing.isEmpty then [' '] else []) ++ block.trailing
  else block.text ++ block.leading ++ block.trailing

def scanBlockLines (literal : Bool) (indent : Nat) : Nat → BlockText → Cursor →
    Option (BlockText × Cursor)
  | 0, _, _ => none
  | fuel + 1, block, cursor =>
      if cursor.column = indent && !cursor.atEnd then do
        -- A line that starts with a blank keeps the breaks around it.
        let blank := cursor.ahead 0 isSpace
        let text := block.joined literal blank
        let (line, cursor) := cursor.span fun char => !isBreak char
        let (leading, cursor) := cursor.takeBreak
        let (_, trailing, cursor) ← scanIndent indent (cursor.rest.length + 1) 0 [] cursor
        scanBlockLines literal indent fuel
          { text := text ++ line, leading, trailing, blankLine := blank } cursor
      else some (block, cursor)

def scanBlockHeader (cursor : Cursor) : Option (Nat × Chomping × Cursor) :=
  let mark? (cursor : Cursor) : Option Chomping :=
    match cursor.rest.head? with
    | some '+' => some .keep
    | some '-' => some .strip
    | _ => none
  let digit? (cursor : Cursor) : Option Nat := cursor.rest.head?.bind (Numeral.digit? 10)
  match mark? cursor with
  | some chomping =>
      let cursor := cursor.advance 1
      match digit? cursor with
      | some 0 => none
      | some digit => some (digit, chomping, cursor.advance 1)
      | none => some (0, chomping, cursor)
  | none =>
      match digit? cursor with
      | some 0 => none
      | some digit =>
          let cursor := cursor.advance 1
          match mark? cursor with
          | some chomping => some (digit, chomping, cursor.advance 1)
          | none => some (digit, .clip, cursor)
      | none => some (0, .clip, cursor)

def scanBlock (literal : Bool) (parent : Int) (cursor : Cursor) : Option (List Char × Cursor) := do
  let (increment, chomping, cursor) ← scanBlockHeader cursor
  let cursor := (cursor.skip isSpace).skipComment
  guard (cursor.atEnd || cursor.ahead 0 isBreak)
  let cursor := cursor.skipBreak
  let stated := if increment = 0 then 0 else (max parent 0).toNat + increment
  let (widest, trailing, cursor) ← scanIndent stated (cursor.rest.length + 1) 0 [] cursor
  -- Without a digit in the header the first line with a text settles the indentation.
  let indent := if stated = 0 then max (max widest (parent + 1).toNat) 1 else stated
  let (block, cursor) ← scanBlockLines literal indent (cursor.rest.length + 1) { trailing } cursor
  let ending :=
    match chomping with
    | .strip => []
    | .clip => block.leading
    | .keep => block.leading ++ block.trailing
  return (block.text ++ ending, cursor)

end Block

end IngressControl.Yaml
