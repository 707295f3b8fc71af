import IngressControl.Yaml.Scalar
/-!
The tokens of a YAML text.

A mapping key without an indicator of its own is only known for one when its colon is met, on the
same line and within 1024 characters; its token is then put in front of those that the key
consists of. Blocks open and close with the indentation of their lines.
-/

namespace IngressControl.Yaml

inductive ScalarStyle where
  | plain
  | quoted
  | literal
  | folded
  deriving DecidableEq, Repr

inductive Token where
  | versionDirective (major minor : Nat)
  | tagDirective (handle start : String)
  | documentStart
  | documentEnd
  | blockSequenceStart
  | blockMappingStart
  | blockEnd
  | flowSequenceStart
  | flowSequenceEnd
  | flowMappingStart
  | flowMappingEnd
  | blockEntry
  | flowEntry
  | key
  | value
  | anchorAlias (name : String)
  | anchor (name : String)
  | tag (handle suffix : String)
  | scalar (text : String) (style : ScalarStyle)
  deriving DecidableEq, Repr

/-- A place where a key may have begun. -/
structure PossibleKey where
  position : Nat
  isRequired : Bool
  index : Nat
  line : Nat
  column : Nat

structure Scanner where
  cursor : Cursor
  tokens : Array Token := #[]
  indent : Int := -1
  outer : List Int := []
  keyAllowed : Bool := true
  possible : Option PossibleKey := none
  levels : List (Option PossibleKey) := []

namespace Scanner

def inFlow (scanner : Scanner) : Bool := !scanner.levels.isEmpty

def push (scanner : Scanner) (token : Token) : Scanner :=
  { scanner with tokens := scanner.tokens.push token }

def insertAt (scanner : Scanner) (position : Nat) (token : Token) : Scanner :=
  { scanner with tokens := scanner.tokens.insertIdxIfInBounds position token }

def advance (scanner : Scanner) (count : Nat) : Scanner :=
  { scanner with cursor := scanner.cursor.advance count }

def allowKey (scanner : Scanner) (allowed : Bool) : Scanner := { scanner with keyAllowed := allowed }

/-- Gives up the key that may have begun; one that has to be there cannot be given up. -/
def dropKey (scanner : Scanner) : Option Scanner :=
  match scanner.possible with
  | some key => if key.isRequired then none else some { scanner with possible := none }
  | none => some scanner

def noteKey (scanner : Scanner) : Option Scanner :=
  if scanner.keyAllowed then do
    let scanner ← scanner.dropKey
    let cursor := scanner.cursor
    return { scanner with
      possible := some
        { position := scanner.tokens.size
          isRequired := !scanner.inFlow && scanner.indent = cursor.column
          index := cursor.index, line := cursor.line, column := cursor.column } }
  else some scanner

def unroll (column : Int) : Nat → Scanner → Scanner
  | 0, scanner => scanner
  | fuel + 1, scanner =>
      if scanner.inFlow then scanner
      else if column < scanner.indent then
        match scanner.outer with
        | indent :: outer =>
            unroll column fuel { scanner.push .blockEnd with indent, outer }
        | [] => scanner
      else scanner

def unrollTo (scanner : Scanner) (column : Int) : Scanner :=
  unroll column scanner.outer.length scanner

def roll (scanner : Scanner) (column position : Nat) (token : Token) : Scanner :=
  if !scanner.inFlow && scanner.indent < column then
    { scanner.insertAt position token with
      indent := column, outer := scanner.indent :: scanner.outer }
  else scanner

/-- Skips white space, comments and line breaks in front of a token. A tab may only stand where
no key can begin. -/
def skipGap : Nat → Scanner → Scanner
  | 0, scanner => scanner
  | fuel + 1, scanner =>
      let tabs := scanner.inFlow || !scanner.keyAllowed
      let cursor := (scanner.cursor.skip fun char => char = ' ' || (tabs && char = '\t')).skipComment
      if cursor.ahead 0 isBreak then
        -- Outside brackets a key may begin on every line.
        skipGap fuel
          { scanner with
            cursor := cursor.skipBreak, keyAllowed := scanner.keyAllowed || !scanner.inFlow }
      else { scanner with cursor }

section Directives

def scanNumber (cursor : Cursor) : Option (Nat × Cursor) := do
  let (digits, cursor) := cursor.span Char.isDigit
  guard (digits.length ≤ 9)
  return (← Numeral.digits? 10 digits, cursor)

def isTagChar (char : Char) : Bool :=
  isNameChar char
    || [';', '/', '?', ':', '@', '&', '=', '+', '$', '.', '!', '~', '*', '\'', '(', ')'].contains char

def encodedLength? (byte : Nat) : Option Nat :=
  if byte < 0x80 then some 1
  else if 0xC0 ≤ byte ∧ byte < 0xE0 then some 2
  else if 0xE0 ≤ byte ∧ byte < 0xF0 then some 3
  else if 0xF0 ≤ byte ∧ byte < 0xF8 then some 4
  else none

def scanPercents : Nat → Cursor → Option (List Nat × Cursor)
  | 0, cursor => some ([], cursor)
  | count + 1, cursor => do
      let '%' :: high :: low :: _ := cursor.rest | none
      let byte ← Numeral.digits? 16 [high, low]
      let (bytes, cursor) ← scanPercents count (cursor.advance 3)
      return (byte :: bytes, cursor)

def scanTagText (verbatim : Bool) : Nat → List Char → Cursor → Option (List Char × Cursor)
  | 0, _, _ => none
  | fuel + 1, text, cursor =>
      match cursor.rest with
      | '%' :: high :: low :: _ => do
          let count ← encodedLength? (← Numeral.digits? 16 [high, low])
          let (bytes, cursor) ← scanPercents count cursor
          let decoded ← String.fromUTF8? ⟨(bytes.map UInt8.ofNat).toArray⟩
          scanTagText verbatim fuel (text ++ decoded.toList) cursor
      | '%' :: _ => none
      | char :: _ =>
          if isTagChar char || (verbatim && (char = ',' || char = '[' || char = ']')) then
            scanTagText verbatim fuel (text ++ [char]) (cursor.advance 1)
          else some (text, cursor)
      | [] => some (text, cursor)

def tagText (verbatim : Bool) (cursor : Cursor) : Option (List Char × Cursor) :=
  scanTagText verbatim (cursor.rest.length + 1) [] cursor

def scanHandle (cursor : Cursor) : Option (List Char × Cursor) := do
  guard (cursor.isAt '!')
  let (name, cursor) := (cursor.advance 1).span isNameChar
  if cursor.isAt '!' then return ('!' :: name ++ ['!'], cursor.advance 1)
  return ('!' :: name, cursor)

def scanDirective (cursor : Cursor) : Option (Token × Cursor) := do
  let (name, cursor) := cursor.span isNameChar
  guard (cursor.gapAhead 0)
  let cursor := cursor.skip isSpace
  let (token, cursor) ← match String.ofList name with
    | "YAML" => do
        let (major, cursor) ← scanNumber cursor
        guard (cursor.isAt '.')
        let (minor, cursor) ← scanNumber (cursor.advance 1)
        pure (Token.versionDirective major minor, cursor)
    | "TAG" => do
        let (handle, cursor) ← scanHandle cursor
        guard (handle.getLast? = some '!')
        guard (cursor.ahead 0 isSpace)
        let (start, cursor) ← tagText true (cursor.skip isSpace)
        guard (!start.isEmpty && cursor.gapAhead 0)
        pure (Token.tagDirective (String.ofList handle) (String.ofList start), cursor)
    | _ => none
  let cursor := (cursor.skip isSpace).skipComment
  guard (cursor.atEnd || cursor.ahead 0 isBreak)
  return (token, cursor.skipBreak)

end Directives

def scanTag (flow : Bool) (cursor : Cursor) : Option (Token × Cursor) := do
  let (token, cursor) ←
    if cursor.ahead 1 (· = '<') then do
      -- `!<tag>` states the whole tag.
      let (suffix, cursor) ← tagText true (cursor.advance 2)
      guard (!suffix.isEmpty && cursor.isAt '>')
      pure (Token.tag "" (String.ofList suffix), cursor.advance 1)
    else do
      let (handle, behind) ← scanHandle cursor
      if 1 < handle.length && handle.getLast? = some '!' then do
        -- `!handle!suffix` stands for what the handle stands for and the suffix.
        let (suffix, cursor) ← tagText false behind
        guard (!suffix.isEmpty)
        pure (Token.tag (String.ofList handle) (String.ofList suffix), cursor)
      else do
        -- In `!suffix` the name that was taken for a handle belongs to the suffix.
        let (suffix, cursor) ← tagText false behind
        let suffix := handle.drop 1 ++ suffix
        if suffix.isEmpty then pure (Token.tag "" "!", cursor)
        else pure (Token.tag "!" (String.ofList suffix), cursor)
  guard (cursor.gapAhead 0 || (flow && cursor.isAt ','))
  return (token, cursor)

def scanName (cursor : Cursor) : Option (String × Cursor) := do
  let (name, cursor) := cursor.span isNameChar
  guard (!name.isEmpty)
  guard (cursor.gapAhead 0
    || cursor.ahead 0 fun char => ['?', ':', ',', ']', '\x7d', '%', '@', '\x60'].contains char)
  return (String.ofList name, cursor)

def closeBlocks (scanner : Scanner) : Option Scanner := do
  let scanner ← (scanner.unrollTo (-1)).dropKey
  return scanner.allowKey false

def openFlow (scanner : Scanner) (token : Token) : Option Scanner := do
  let scanner ← scanner.noteKey
  let scanner := { scanner with levels := scanner.possible :: scanner.levels, possible := none }
  return ((scanner.allowKey true).advance 1).push token

def closeFlow (scanner : Scanner) (token : Token) : Option Scanner := do
  let scanner ← scanner.dropKey
  let scanner :=
    match scanner.levels with
    | possible :: levels => { scanner with possible, levels }
    | [] => scanner
  return ((scanner.allowKey false).advance 1).push token

def openBlock (scanner : Scanner) (token : Token) : Option Scanner :=
  if scanner.inFlow then some scanner
  else if scanner.keyAllowed then
    some (scanner.roll scanner.cursor.column scanner.tokens.size token)
  else none

def takeEntry (scanner : Scanner) : Option Scanner := do
  let scanner ← (← scanner.openBlock .blockSequenceStart).dropKey
  return ((scanner.allowKey true).advance 1).push .blockEntry

def takeKey (scanner : Scanner) : Option Scanner := do
  let scanner ← (← scanner.openBlock .blockMappingStart).dropKey
  return ((scanner.allowKey !scanner.inFlow).advance 1).push .key

/-- Whether a key that began here can still be ended by a colon at the cursor. -/
def isCurrent (key : PossibleKey) (cursor : Cursor) : Bool :=
  key.line = cursor.line && cursor.index ≤ key.index + 1024

def takeValue (scanner : Scanner) : Option Scanner := do
  let current := scanner.possible.filter fun key => isCurrent key scanner.cursor
  let scanner ←
    match current with
    | some key =>
        -- The tokens of the key are there already, and its mark belongs in front of them.
        let scanner := scanner.insertAt key.position .key
        let scanner := scanner.roll key.column key.position .blockMappingStart
        pure { scanner with possible := none, keyAllowed := false }
    | none => do
        -- A value without a key in front, or behind a key with an indicator of its own.
        let scanner ← (← scanner.dropKey).openBlock .blockMappingStart
        pure (scanner.allowKey !scanner.inFlow)
  return (scanner.advance 1).push .value

def takeNode (scanner : Scanner) (scan : Cursor → Option (Token × Cursor)) : Option Scanner := do
  let scanner ← scanner.noteKey
  let (token, cursor) ← scan scanner.cursor
  return { scanner.allowKey false with cursor } |>.push token

def takeBlock (scanner : Scanner) (literal : Bool) : Option Scanner := do
  let scanner ← scanner.dropKey
  let (text, cursor) ← scanBlock literal scanner.indent (scanner.cursor.advance 1)
  return { scanner.allowKey true with cursor } |>.push
    (.scalar (String.ofList text) (if literal then .literal else .folded))

def takePlain (scanner : Scanner) : Option Scanner := do
  let scanner ← scanner.noteKey
  let (text, broken, cursor) ← scanPlain scanner.inFlow (scanner.indent + 1)
    (scanner.cursor.rest.length + 1) [] {} scanner.cursor
  return { scanner.allowKey broken with cursor } |>.push (.scalar (String.ofList text) .plain)

def quotedToken (single : Bool) (cursor : Cursor) : Option (Token × Cursor) :=
  (scanQuoted single (cursor.rest.length + 1) [] (cursor.advance 1)).map fun (text, cursor) =>
    (.scalar (String.ofList text) .quoted, cursor)

def isIndicator (char : Char) : Bool :=
  ['-', '?', ':', ',', '[', ']', '\x7b', '\x7d', '#', '&', '*', '!', '|', '>', '\'', '"', '%', '@',
    '\x60'].contains char

/-- Whether a plain scalar starts with a character: with one that indicates nothing, or with a
dash, a question mark or a colon that has something right behind it. -/
def startsPlain (scanner : Scanner) (char : Char) : Bool :=
  !(isSpace char || isBreak char || isIndicator char)
    || (char = '-' && !scanner.cursor.ahead 1 isSpace)
    || (!scanner.inFlow && (char = '?' || char = ':') && !scanner.cursor.gapAhead 1)

def takeToken (scanner : Scanner) : Option Scanner :=
  let scanner := scanner.unrollTo scanner.cursor.column
  let cursor := scanner.cursor
  let flow := scanner.inFlow
  match cursor.rest.head? with
  | none => some scanner
  | some char =>
      -- A directive or a mark at the start of a line ends the document in front of it.
      if cursor.column = 0 ∧ char = '%' then do
        let scanner ← scanner.closeBlocks
        let (token, cursor) ← scanDirective (scanner.cursor.advance 1)
        return { scanner with cursor } |>.push token
      else if cursor.atDocumentMark then do
        let scanner ← scanner.closeBlocks
        return (scanner.advance 3).push (if char = '-' then .documentStart else .documentEnd)
      else if char = '[' then scanner.openFlow .flowSequenceStart
      else if char = '\x7b' then scanner.openFlow .flowMappingStart
      else if char = ']' then scanner.closeFlow .flowSequenceEnd
      else if char = '\x7d' then scanner.closeFlow .flowMappingEnd
      else if char = ',' then do
        let scanner ← scanner.dropKey
        return ((scanner.allowKey true).advance 1).push .flowEntry
      else if char = '-' ∧ cursor.gapAhead 1 then scanner.takeEntry
      else if char = '?' ∧ (flow ∨ cursor.gapAhead 1) then scanner.takeKey
      else if char = ':' ∧ (flow ∨ cursor.gapAhead 1) then scanner.takeValue
      else if char = '*' then scanner.takeNode fun cursor =>
        (scanName (cursor.advance 1)).map fun (name, cursor) => (.anchorAlias name, cursor)
      else if char = '&' then scanner.takeNode fun cursor =>
        (scanName (cursor.advance 1)).map fun (name, cursor) => (.anchor name, cursor)
      else if char = '!' then scanner.takeNode (scanTag flow)
      else if char = '|' ∧ !flow then scanner.takeBlock true
      else if char = '>' ∧ !flow then scanner.takeBlock false
      else if char = '\'' then scanner.takeNode (quotedToken true)
      else if char = '"' then scanner.takeNode (quotedToken false)
      else if scanner.startsPlain char then scanner.takePlain
      else none

def takeAll : Nat → Scanner → Option Scanner
  | 0, _ => none
  | fuel + 1, scanner =>
      let scanner := skipGap (scanner.cursor.rest.length + 1) scanner
      if scanner.cursor.atEnd then scanner.closeBlocks
      else
        match scanner.takeToken with
        | none => none
        | some scanner => takeAll fuel scanner

end Scanner

def Token.ofText? (text : String) : Option (List Token) := do
  let chars :=
    match text.toList with
    | '\ufeff' :: chars => chars
    | chars => chars
  guard (chars.all isPrintable)
  let scanner ← Scanner.takeAll (chars.length + 1) { cursor := { rest := chars } }
  return scanner.tokens.toList

end IngressControl.Yaml
