import IngressControl.Json.Writer
/-!
Events of the log: how grave they are, what they say and where they come from.
-/

namespace IngressControl

inductive Level where
  | error
  | warn
  | info
  | debug
  | trace
  deriving DecidableEq, Repr, Ord

namespace Level

def name : Level → String
  | .error => "ERROR"
  | .warn => "WARN"
  | .info => "INFO"
  | .debug => "DEBUG"
  | .trace => "TRACE"

def rank : Level → Nat
  | .error => 1
  | .warn => 2
  | .info => 3
  | .debug => 4
  | .trace => 5

end Level

structure Event where
  level : Level
  target : String
  message : String
  fields : List (String × Json) := []

def Event.json (event : Event) : Json :=
  .object
    [("level", .text event.level.name), ("message", .text event.message),
      ("fields", .object event.fields)]

def Event.line (event : Event) : String :=
  let fields := event.fields.map fun (key, value) => " " ++ key ++ "=" ++ value.compact
  event.level.name ++ " " ++ event.target ++ ": " ++ event.message ++ String.join fields

end IngressControl
