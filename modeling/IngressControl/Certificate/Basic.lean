import IngressControl.Endpoint.Record
import IngressControl.Instant.Reading
import IngressControl.Instant.Stamp
/-!
Certificates as far as their use goes: identity, the domain patterns they cover and the window in
which they are valid.
-/

namespace IngressControl

inductive TimeOverflow where
  | sum
  | difference
  | spanDifference
  deriving DecidableEq, Repr

structure Certificate where
  id : CertificateId
  domainNames : List String
  notBefore : Instant
  notAfter : Instant
  deriving DecidableEq, Repr

def Instant.ofDocument? (document : Document) : Option Instant :=
  document.text?.bind Stamp.relaxed?

def Instant.json (moment : Instant) : Json := .text moment.text

namespace Certificate

def isValidAt (certificate : Certificate) (now : Instant) : Bool :=
  !(certificate.notAfter < now || now < certificate.notBefore)

def expiresWithin (certificate : Certificate) (now : Instant) (margin : Span) :
    Except TimeOverflow Bool :=
  match certificate.notAfter.minus? margin with
  | none => .error .difference
  | some threshold => .ok (threshold < now)

def ofDocument? (document : Document) : Option Certificate := do
  let [id, domainNames, notBefore, notAfter] ←
    document.fields? ["id", "domainNames", "notBefore", "notAfter"] | none
  return {
    id := ← id.required Document.text?
    domainNames := ← domainNames.required (Document.list? Document.text?)
    notBefore := ← notBefore.required Instant.ofDocument?
    notAfter := ← notAfter.required Instant.ofDocument? }

def json (certificate : Certificate) : Json :=
  .object
    [("id", .text certificate.id),
      ("domainNames", .texts certificate.domainNames),
      ("notBefore", certificate.notBefore.json),
      ("notAfter", certificate.notAfter.json)]

end Certificate

end IngressControl
