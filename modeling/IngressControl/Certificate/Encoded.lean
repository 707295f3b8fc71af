import IngressControl.Certificate.Armor
import IngressControl.Certificate.Der
import IngressControl.Digest.Sha256
import IngressControl.Failure
/-!
Certificates in their encoded form, and the summary taken from the first one of a file.

The names of a certificate are the DNS names of its alternative names, in order; without any, the
first common name of its subject.
-/

namespace IngressControl

namespace Certificate.Encoded

open Der

def commonName : List UInt8 := [0x55, 0x04, 0x03]
def alternativeName : List UInt8 := [0x55, 0x1d, 0x11]

def attribute? : Reader (List UInt8 × Element) := fun bytes => do
  let (content, rest) ← sequence? bytes
  let (id, content) ← identifier? content
  let (value, _) ← element? content
  return ((id, value), rest)

def relativeName? : Reader (List (List UInt8 × Element)) := fun bytes => do
  let (content, rest) ← set? bytes
  let (attributes, _) := many attribute? content.length content
  guard (!attributes.isEmpty)
  return (attributes, rest)

def name? : Reader (List (List UInt8 × Element)) := fun bytes => do
  let (content, rest) ← sequence? bytes
  return ((many relativeName? content.length content).1.flatten, rest)

/-- The text of an attribute in one of the string types that are encoded as UTF-8 or a part of
it. -/
def attributeText? (value : Element) : Option String := do
  guard (value.kind = .universal && [12, 18, 19, 22].contains value.tag)
  Utf8.decode? value.content

def commonName? (subject : List (List UInt8 × Element)) : Option String := do
  let (_, value) ← subject.find? fun entry => entry.1 = commonName
  attributeText? value

def algorithm? : Reader Unit := fun bytes => do
  let (content, rest) ← sequence? bytes
  let _ ← identifier? content
  return ((), rest)

def version? (bytes : List UInt8) : Option (List UInt8) := do
  let (version, rest) ← tagged? 0 bytes
  match version with
  | none => return rest
  | some version =>
      let (number, _) ← universal? 2 false version.content
      guard (number.head?.any (· < 0x80) && bigEndian number < 0x100000000)
      return rest

def validity? : Reader (Instant × Instant) := fun bytes => do
  let (content, rest) ← sequence? bytes
  let (notBefore, content) ← time? content
  let (notAfter, _) ← time? content
  return ((notBefore, notAfter), rest)

def publicKey? : Reader Unit := fun bytes => do
  let (content, rest) ← sequence? bytes
  let ((), content) ← algorithm? content
  let _ ← bitString? content
  return ((), rest)

def uniqueId? (tag : Nat) (bytes : List UInt8) : Option (List UInt8) := do
  let (id, rest) ← tagged? tag bytes
  match id with
  | none => return rest
  | some id =>
      guard (isBitString id.content)
      return rest

def generalName? : Reader (Option String) := fun bytes => do
  let (element, rest) ← element? bytes
  guard (element.kind = .context)
  match element.tag with
  | 0 => do
      let _ ← identifier? element.content
      return (none, rest)
  | 1 => do
      let _ ← Utf8.decode? element.content
      return (none, rest)
  | 2 => do return (some (← Utf8.decode? element.content), rest)
  | 3 => return (none, rest)
  | 4 => do
      let (_, behind) ← name? element.content
      guard behind.isEmpty
      return (none, rest)
  | 5 => return (none, rest)
  | 6 => do
      let _ ← Utf8.decode? element.content
      return (none, rest)
  | 7 => return (none, rest)
  | 8 => return (none, rest)
  | _ => none

/-- The DNS names of an extension with alternative names. One that is malformed has none. -/
def dnsNames (value : List UInt8) : List String :=
  match sequence? value with
  | none => []
  | some (content, _) =>
      match many generalName? content.length content with
      | (names, []) => names.filterMap fun name => name
      | _ => []

def extension? : Reader (List UInt8 × List UInt8) := fun bytes => do
  let (content, rest) ← sequence? bytes
  let (id, content) ← identifier? content
  -- Whether the extension is critical may be stated in between.
  let content :=
    match universal? 1 false content with
    | some ([_], behind) => behind
    | _ => content
  let (value, _) ← octets? content
  return ((id, value), rest)

/-- The extensions that end the signed part, if there are any. Nothing may follow them. -/
def extensions? (bytes : List UInt8) : Option (List (List UInt8 × List UInt8)) := do
  if bytes.isEmpty then return []
  let (wrapper, behind) ← element? bytes
  guard (wrapper.kind = .context && wrapper.tag = 3 && behind.isEmpty)
  let (content, behind) ← sequence? wrapper.content
  guard behind.isEmpty
  let (extensions, behind) := many extension? content.length content
  guard behind.isEmpty
  return extensions

structure Signed where
  notBefore : Instant
  notAfter : Instant
  subject : List (List UInt8 × Element)
  extensions : List (List UInt8 × List UInt8)

def signed? : Reader Signed := fun bytes => do
  let (content, rest) ← sequence? bytes
  let content ← version? content
  let (_, content) ← universal? 2 false content
  let ((), content) ← algorithm? content
  let (_, content) ← name? content
  let ((notBefore, notAfter), content) ← validity? content
  let (subject, content) ← name? content
  let ((), content) ← publicKey? content
  let content ← uniqueId? 1 content
  let content ← uniqueId? 2 content
  let extensions ← extensions? content
  return ({ notBefore, notAfter, subject, extensions }, rest)

/-- The signed part of an encoded certificate; its signature is not checked. -/
def certificate? (bytes : List UInt8) : Option Signed := do
  let (content, _) ← sequence? bytes
  let (signed, content) ← signed? content
  let ((), content) ← algorithm? content
  let _ ← bitString? content
  return signed

def Signed.domainNames (signed : Signed) : List String :=
  let alternatives :=
    (signed.extensions.filter fun entry => entry.1 = alternativeName).flatMap fun entry =>
      dnsNames entry.2
  if alternatives.isEmpty then (commonName? signed.subject).toList else alternatives

end Certificate.Encoded

namespace Certificate

/-- The summary of the first certificate in a file. Its identifier is the digest of the encoded
block, so that the name of the file does not matter. -/
def ofFile (path : String) (bytes : List UInt8) : Except Failure Certificate := do
  let some block := (Armor.blocks bytes).find? fun block => block.label = "CERTIFICATE"
    | throw (.certificate path "no CERTIFICATE block found")
  let some signed := Encoded.certificate? block.content
    | throw (.certificate path "invalid DER")
  if signed.domainNames.isEmpty then throw (.certificate path "certificate names no DNS hosts")
  return {
    id := Sha256.text block.content
    domainNames := signed.domainNames
    notBefore := signed.notBefore
    notAfter := signed.notAfter }

end Certificate

end IngressControl
