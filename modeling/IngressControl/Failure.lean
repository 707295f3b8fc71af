import IngressControl.Text.Cut
/-!
What can go wrong, by cause, and the wording of each cause.
-/

namespace IngressControl

inductive Failure where
  | config (message : String)
  | validation (message : String) (field : Option String)
  | notFound (type id : String)
  | noMatchingCertificate (hostname : String)
  | noUpdateNeeded (resource : String)
  | provider (operation message : String)
  | rateLimit (operation : String)
  | orchestrator (message : String)
  | certificateSource (source message : String)
  | certificate (path message : String)
  | invalidTag (key value reason : String)
  | io (context : String)
  | serialization (context : String)
  | yaml (context : String)
  | internal (message : String)
  deriving DecidableEq, Repr, Inhabited

namespace Failure

def file : Failure := .io "I/O operation failed"

def jsonText : Failure := .serialization "JSON serialization failed"

def yamlText : Failure := .yaml "YAML decoding failed"

def unloadable : Failure := .config "Configuration loading failed"

def invalidField (message field : String) : Failure := .validation message (some field)

def message : Failure → String
  | .config message => "Configuration error: " ++ message
  | .validation message _ => "Validation error: " ++ message
  | .notFound type id => "Resource not found: " ++ type ++ " with ID '" ++ id ++ "'"
  | .noMatchingCertificate hostname =>
      "No matching certificate found for hostname '" ++ hostname ++ "'"
  | .noUpdateNeeded resource => "No update needed for " ++ resource
  | .provider operation message => "Provider error during " ++ operation ++ ": " ++ message
  | .rateLimit operation => "Rate limit exceeded during " ++ operation
  | .orchestrator message => "Orchestrator error: " ++ message
  | .certificateSource source message =>
      "Certificate source '" ++ source ++ "' failed: " ++ message
  | .certificate path message => "Invalid certificate at " ++ path ++ ": " ++ message
  | .invalidTag key value reason => "Invalid tag " ++ key ++ "=" ++ value ++ ": " ++ reason
  | .io context => "I/O error: " ++ context
  | .serialization context => "Serialization error: " ++ context
  | .yaml context => "YAML error: " ++ context
  | .internal message => "Internal error: " ++ message

def kind : Failure → String
  | .config _ => "config"
  | .validation .. => "validation"
  | .notFound .. => "not_found"
  | .noMatchingCertificate _ => "no_matching_certificate"
  | .noUpdateNeeded _ => "no_update_needed"
  | .provider .. => "provider"
  | .rateLimit _ => "rate_limit"
  | .orchestrator _ => "orchestrator"
  | .certificateSource .. => "certificate_source"
  | .certificate .. => "certificate"
  | .invalidTag .. => "invalid_tag"
  | .io _ => "io"
  | .serialization _ => "serialization"
  | .yaml _ => "yaml"
  | .internal _ => "internal"

/-- Says where a failure of a file or of a text occurred. The other causes name their place
themselves. -/
def within (place : String) : Failure → Failure
  | .io context => .io (place ++ ": " ++ context)
  | .serialization context => .serialization (place ++ ": " ++ context)
  | .yaml context => .yaml (place ++ ": " ++ context)
  | failure => failure

def isNotFound : Failure → Bool
  | .notFound .. => true
  | .noMatchingCertificate _ => true
  | _ => false

def isRetryable : Failure → Bool
  | .provider .. => true
  | .rateLimit _ => true
  | .orchestrator _ => true
  | .certificateSource .. => true
  | .io _ => true
  | _ => false

def field? : Failure → Option String
  | .validation _ field => field
  | _ => none

end Failure

end IngressControl
