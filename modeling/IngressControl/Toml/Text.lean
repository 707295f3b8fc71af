import IngressControl.Decimal.Numeral
/-!
Strings, keys and blanks of TOML texts.

Basic strings know escapes, literal ones do not. Either kind may run over several lines between
tripled quotes, and then a line break right behind the opening quotes does not count.
-/

namespace IngressControl.Toml

def isSpace (char : Char) : Bool := char = ' ' || char = '\t'

def skipSpaces (chars : List Char) : List Char := chars.dropWhile isSpace

def isControl (char : Char) : Bool :=
  (char.toNat < 0x20 && char != '\t') || char.toNat = 0x7F

def afterBreak? : List Char → Option (List Char)
  | '\n' :: rest => some rest
  | '\r' :: '\n' :: rest => some rest
  | _ => none

def skipComment? : List Char → Option (List Char)
  | '#' :: rest =>
      match rest.span fun char => char != '\n' && char != '\r' with
      | (comment, rest) => if comment.any isControl then none else some rest
  | rest => some rest

def endLine? (chars : List Char) : Option (List Char) := do
  let rest ← skipComment? (skipSpaces chars)
  if rest.isEmpty then return [] else afterBreak? rest

def skipLines? : Nat → List Char → Option (List Char)
  | 0, _ => none
  | fuel + 1, chars => do
      let rest ← skipComment? (skipSpaces chars)
      match afterBreak? rest with
      | some rest => skipLines? fuel rest
      | none => return rest

def charOf? (digits : List Char) : Option Char := do
  let value ← Numeral.digits? 16 digits
  if h : value.isValidChar then some (Char.ofNatAux value h) else none

def escape? : List Char → Option (Char × List Char)
  | 'b' :: rest => some ('\x08', rest)
  | 't' :: rest => some ('\t', rest)
  | 'n' :: rest => some ('\n', rest)
  | 'f' :: rest => some ('\x0c', rest)
  | 'r' :: rest => some ('\r', rest)
  | '"' :: rest => some ('"', rest)
  | '\\' :: rest => some ('\\', rest)
  | 'u' :: rest => do
      guard (4 ≤ rest.length)
      return (← charOf? (rest.take 4), rest.drop 4)
  | 'U' :: rest => do
      guard (8 ≤ rest.length)
      return (← charOf? (rest.take 8), rest.drop 8)
  | _ => none

def basic? : Nat → List Char → Option (List Char × List Char)
  | 0, _ => none
  | fuel + 1, chars =>
      match chars with
      | [] => none
      | '"' :: rest => some ([], rest)
      | '\\' :: rest => do
          let (char, rest) ← escape? rest
          let (text, rest) ← basic? fuel rest
          return (char :: text, rest)
      | char :: rest => do
          guard !(isControl char)
          let (text, rest) ← basic? fuel rest
          return (char :: text, rest)

def literal? : List Char → Option (List Char × List Char)
  | [] => none
  | char :: rest =>
      if char = '\'' then some ([], rest)
      else do
        guard !(isControl char)
        let (text, rest) ← literal? rest
        return (char :: text, rest)

/-- The end of a string over several lines: three quotes, with up to two more that belong to the
string. -/
def closing? (quote : Char) (chars : List Char) : Option (List Char × List Char) :=
  match chars.span (· = quote) with
  | (quotes, rest) =>
      if quotes.length < 3 then none
      else
        let extra := min (quotes.length - 3) 2
        some (List.replicate extra quote, List.replicate (quotes.length - 3 - extra) quote ++ rest)

def joinLines? (chars : List Char) : Option (List Char) := do
  let rest ← afterBreak? (skipSpaces chars)
  return rest.dropWhile fun char => isSpace char || char = '\n' || char = '\r'

def multiline? (quote : Char) : Nat → List Char → Option (List Char × List Char)
  | 0, _ => none
  | fuel + 1, chars =>
      match closing? quote chars with
      | some (text, rest) => some (text, rest)
      | none =>
          match chars with
          | [] => none
          | char :: rest =>
              if char = '\\' && quote = '"' then
                match joinLines? rest with
                | some rest => multiline? quote fuel rest
                | none => do
                    let (char, rest) ← escape? rest
                    let (text, rest) ← multiline? quote fuel rest
                    return (char :: text, rest)
              else
                match afterBreak? chars with
                | some rest => do
                    let (text, rest) ← multiline? quote fuel rest
                    return ('\n' :: text, rest)
                | none => do
                    guard !(isControl char)
                    let (text, rest) ← multiline? quote fuel rest
                    return (char :: text, rest)

def lineString? : List Char → Option (String × List Char)
  | '"' :: rest => (basic? (rest.length + 1) rest).map fun (text, rest) => (String.ofList text, rest)
  | '\'' :: rest => (literal? rest).map fun (text, rest) => (String.ofList text, rest)
  | _ => none

def isTripled (quote : Char) : List Char → Bool
  | first :: second :: third :: _ => first = quote && second = quote && third = quote
  | _ => false

def string? (chars : List Char) : Option (String × List Char) :=
  match chars with
  | [] => none
  | quote :: _ =>
      if isTripled quote chars then
        let rest := chars.drop 3
        let rest := (afterBreak? rest).getD rest
        (multiline? quote (rest.length + 1) rest).map fun (text, rest) => (String.ofList text, rest)
      else lineString? chars

def isKeyChar (char : Char) : Bool := char.isAlphanum || char = '-' || char = '_'

def simpleKey? (chars : List Char) : Option (String × List Char) :=
  match chars.span isKeyChar with
  | ([], rest) => lineString? rest
  | (key, rest) => some (String.ofList key, rest)

def key? : Nat → List Char → Option (List String × List Char)
  | 0, _ => none
  | fuel + 1, chars => do
      let (key, rest) ← simpleKey? (skipSpaces chars)
      match skipSpaces rest with
      | '.' :: rest => do
          let (keys, rest) ← key? fuel rest
          return (key :: keys, rest)
      | rest => return ([key], rest)

end IngressControl.Toml
