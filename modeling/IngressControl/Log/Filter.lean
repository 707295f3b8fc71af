import IngressControl.Decimal.Numeral
import IngressControl.Log.Event
import IngressControl.Text.Blank
/-!
Filters of the log: which events are shown, by how grave they are and where they come from.

A filter is written as directives between commas: a level for everything, a target with a level,
or a target alone, which shows everything from there. Of the directives whose target starts that
of an event the one with the longest target decides. Directives about spans are read, but no
event is shown because of them.
-/

namespace IngressControl

abbrev Threshold := Option Level

structure Directive where
  target : String
  threshold : Threshold
  deriving DecidableEq, Repr

abbrev LogFilter := List Directive

namespace Threshold

def ofText? (text : String) : Option Threshold :=
  match Numeral.natural? text.toList with
  | some 0 => some none
  | some 1 => some (some .error)
  | some 2 => some (some .warn)
  | some 3 => some (some .info)
  | some 4 => some (some .debug)
  | some 5 => some (some .trace)
  | _ =>
      match Text.lowered text with
      | "off" => some none
      | "error" => some (some .error)
      | "warn" => some (some .warn)
      | "info" => some (some .info)
      | "debug" => some (some .debug)
      | "trace" => some (some .trace)
      | _ => none

/-- A level behind an equals sign. Nothing there shows everything. -/
def ofRest? (chars : List Char) : Option Threshold :=
  if chars.isEmpty then some (some .trace) else ofText? (String.ofList chars)

def shows (threshold : Threshold) (level : Level) : Bool :=
  threshold.any fun shown => level.rank ≤ shown.rank

end Threshold

namespace Directive

def everything (level : Level) : Directive := ⟨"", some level⟩

/-- What follows the description of spans in brackets: its name up to the closing bracket, or
fields in braces in front of that. -/
def afterSpans? (chars : List Char) : Option (List Char) :=
  match chars.span fun char => char != ']' && char != '\x7b' with
  | (_, ']' :: rest) => some rest
  | (_, _ :: fields) =>
      match Text.cutAt? '\x7d' fields with
      | some (_ :: _, ']' :: rest) => some rest
      | _ => none
  | (_, []) => none

def describesSpans (chars : List Char) : Bool :=
  match afterSpans? chars with
  | some [] => true
  | some ('=' :: level) => (Threshold.ofRest? level).isSome
  | _ => false

def isStart (char : Char) : Bool :=
  char = '-' || char = ':' || char = '_' || char.isAlphanum || 0x80 ≤ char.toNat

def ofTarget? (chars : List Char) : Option (Option Directive) :=
  match chars.span fun char => char != '=' && char != '[' with
  | (target, '=' :: level) =>
      if chars.head?.any Text.isBlank then none
      else (Threshold.ofRest? level).map fun threshold => some ⟨String.ofList target, threshold⟩
  | (_, _ :: spans) => if describesSpans spans then some none else none
  | (_, []) =>
      let text := String.ofList chars
      some <| some <|
        match Threshold.ofText? text with
        | some threshold => ⟨"", threshold⟩
        | none => ⟨text, some .trace⟩

/-- Reads a directive. Blanks at its ends count as parts of it. One about spans gives none, and
what is no directive gives nothing at all. -/
def ofPiece? (piece : String) : Option (Option Directive) :=
  match Text.trimStart piece.toList with
  | [] => none
  | '[' :: spans => if describesSpans spans then some none else none
  | start :: _ => if isStart start then ofTarget? piece.toList else none

end Directive

namespace LogFilter

def pieces (text : String) : List String :=
  (Text.splitAll ',' text).filter fun piece => !piece.isEmpty

/-- The filter of directives that were read. Without any, errors alone are shown. -/
def ofRead (read : List (Option Directive)) : LogFilter :=
  if read.isEmpty then [.everything .error] else read.filterMap id

def strict? (text : String) : Option LogFilter := ((pieces text).mapM Directive.ofPiece?).map ofRead

def lenient (text : String) : LogFilter := ofRead ((pieces text).filterMap Directive.ofPiece?)

def ofVariable (value : Option String) (configured : String) : LogFilter :=
  (value.bind strict?).getD (lenient configured)

def prefer (target : String) (known : Option Directive) (directive : Directive) : Option Directive :=
  if !Text.startsWith directive.target target then known
  else
    match known with
    | none => some directive
    | some other =>
        if other.target.utf8ByteSize ≤ directive.target.utf8ByteSize then some directive else known

/-- The directive that decides about a target; of two with the same target the later one. -/
def deciding? (filter : LogFilter) (target : String) : Option Directive :=
  filter.foldl (prefer target) none

def shows (filter : LogFilter) (level : Level) (target : String) : Bool :=
  (filter.deciding? target).any fun directive => directive.threshold.shows level

end LogFilter

end IngressControl
