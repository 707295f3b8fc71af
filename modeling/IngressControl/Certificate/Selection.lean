import IngressControl.Certificate.Basic
import IngressControl.Failure
/-!
Choosing the certificate for a hostname.

The longest pattern wins, and of equal patterns the newer certificate. A certificate in its last
week gives way to any that is not.
-/

namespace IngressControl

/-- Whether a domain pattern covers a host: `*` covers all, `*.example.org` one label in front
of `.example.org`, anything else itself. -/
def covers (pattern host : String) : Bool :=
  match pattern.toList with
  | [] => host.isEmpty
  | ['*'] => true
  | '*' :: suffix =>
      match Text.withoutEnd? suffix host.toList with
      | some label => !label.contains '.'
      | none => false
  | _ => pattern = host

namespace Certificate

/-- A certificate is near its expiry in its last week. -/
def nearExpiry : Span := Span.days 7

/-- A certificate found for a hostname and the length of the pattern that covers it, in bytes. -/
structure Candidate where
  certificate : Certificate
  length : Nat
  deriving DecidableEq, Repr

def winsTie (candidate certificate : Certificate) (now : Instant) : Except TimeOverflow Bool :=
  if candidate.notBefore < certificate.notBefore then do
    return !(← certificate.expiresWithin now nearExpiry)
  else if certificate.notBefore = candidate.notBefore then
    return candidate.notAfter < certificate.notAfter
  else do
    return (← candidate.expiresWithin now nearExpiry) && candidate.notAfter < certificate.notAfter

def replaces (candidate : Candidate) (certificate : Certificate) (length : Nat) (now : Instant) :
    Except TimeOverflow Bool :=
  if candidate.length < length then do
    return !(← certificate.expiresWithin now nearExpiry)
  else if length = candidate.length then winsTie candidate.certificate certificate now
  else do
    if ← candidate.certificate.expiresWithin now nearExpiry then
      return !(← certificate.expiresWithin now nearExpiry)
    else return false

def better (found : Option Candidate) (certificate : Certificate) (length : Nat) (now : Instant) :
    Except TimeOverflow (Option Candidate) :=
  match found with
  | none => .ok (some ⟨certificate, length⟩)
  | some candidate => do
      if ← replaces candidate certificate length now then return some ⟨certificate, length⟩
      else return some candidate

def matching (certificates : List Certificate) (hostname : String) (now : Instant) :
    List (Certificate × String) :=
  (certificates.filter fun certificate => certificate.isValidAt now).flatMap fun certificate =>
    (certificate.domainNames.filter fun pattern => covers pattern hostname).map (certificate, ·)

def compete (now : Instant) (found : Option Candidate) :
    List (Certificate × String) → Except TimeOverflow (Option Candidate)
  | [] => .ok found
  | (certificate, pattern) :: rest => do
      compete now (← better found certificate pattern.utf8ByteSize now) rest

def best? (certificates : List Certificate) (hostname : String) (now : Instant) :
    Except TimeOverflow (Option Certificate) := do
  return (← compete now none (matching certificates hostname now)).map Candidate.certificate

def best (certificates : List Certificate) (hostname : String) (now : Instant) :
    Except TimeOverflow (Except Failure Certificate) := do
  match ← best? certificates hostname now with
  | some certificate => return .ok certificate
  | none => return .error (.noMatchingCertificate hostname)

end Certificate

end IngressControl
