import IngressControl.Compatibility
import IngressControl.Certificate.Basic
import IngressControl.Failure
import IngressControl.Text.Cut
/-!
Stack tags, which are all that the controller remembers between passes, and the values encoded
in them.

Each certificate has a tag of its own with the time of its removal; a fixed time in the distant
past stands for a certificate that is kept.
-/

namespace IngressControl

abbrev Tags := Table String String

/-- Certificates with the times of their removal; without one a certificate is kept. -/
abbrev Schedule := Table CertificateId (Option Instant)

namespace Tag

def application : String := "kubernetes:application"
def applicationValue : String := "albkeeper"
def clusterId : String := "ingress:cluster-id"
def owner : String := "ingress:owner"
def certificateStart : String := "ingress:certificate-arn/"
def scheme : String := "ingress:scheme"
def securityGroup : String := "ingress:security-group"
def sslPolicy : String := "ingress:ssl-policy"
def loadBalancerType : String := "ingress:load-balancer-type"
def addressFamily : String := "ingress:ip-address-type"
def http2 : String := "ingress:http2"
def webAcl : String := "ingress:waf-web-acl-id"
def shared : String := "ingress:shared"
def deletionScheduled : String := "ingress:deletion-scheduled-at"
def alarmHash : String := "cloudwatch:alarm-config-hash"

def keepIndefinitely : String := "0001-01-01T00:00:00Z"

def flagText (value : Bool) : String := if value then "true" else "false"

def readFlag (key value : String) : Except Failure Bool :=
  match value with
  | "true" => .ok true
  | "false" => .ok false
  | _ => .error (.invalidTag key value "expected true or false")

def readTime (key value : String) : Except Failure Instant :=
  match Stamp.strict value with
  | .ok moment => .ok moment
  | .error fault => .error (.invalidTag key value fault.message)

def readChoice {α : Type} [Choice α] (key value : String) : Except Failure α :=
  match Choice.ofName value with
  | .ok choice => .ok choice
  | .error reason => .error (.invalidTag key value reason)

end Tag

namespace Tags

def ownedBy (cluster : String) : Tags :=
  Table.empty.insert Tag.application Tag.applicationValue |>.insert Tag.clusterId cluster

def put (tags : Tags) (key : String) : Option String → Tags
  | some value => tags.insert key value
  | none => tags.erase key

def clusterId? (tags : Tags) : Option String := tags.get? Tag.clusterId

def owner (tags : Tags) : Except Failure (Option EndpointId) :=
  match tags.get? Tag.owner with
  | none => .ok none
  | some value =>
      match EndpointId.ofText value with
      | .ok id => .ok (some id)
      | .error reason => .error (.invalidTag Tag.owner value reason)

def setOwner (tags : Tags) (owner : Option EndpointId) : Tags :=
  tags.put Tag.owner (owner.map EndpointId.text)

def shared (tags : Tags) : Except Failure Bool :=
  match tags.get? Tag.shared with
  | none => .ok true
  | some value => Tag.readFlag Tag.shared value

def setShared (tags : Tags) (shared : Bool) : Tags := tags.insert Tag.shared (Tag.flagText shared)

def readRemoval (key value : String) : Except Failure (Option Instant) :=
  if value = Tag.keepIndefinitely then .ok none
  else (Tag.readTime key value).map some

/-- Adds the certificates of tags in their order, up to the first that cannot be read. -/
def scheduleFrom (schedule : Schedule) : List (String × String) → Except Failure Schedule
  | [] => .ok schedule
  | (key, value) :: rest =>
      match Text.afterStart? Tag.certificateStart key with
      | none => scheduleFrom schedule rest
      | some id => do
          let removal ← readRemoval key value
          scheduleFrom (schedule.insert id removal) rest

def certificates (tags : Tags) : Except Failure Schedule := scheduleFrom {} tags.entries

def removalText (removal : Option Instant) : String :=
  removal.elim Tag.keepIndefinitely Instant.secondText

def addCertificates (tags : Tags) : List (CertificateId × Option Instant) → Tags
  | [] => tags
  | (id, removal) :: rest =>
      addCertificates (tags.insert (Tag.certificateStart ++ id) (removalText removal)) rest

def setCertificates (tags : Tags) (schedule : Schedule) : Tags :=
  addCertificates (tags.filter fun key _ => !Text.startsWith Tag.certificateStart key)
    schedule.entries

def deletionScheduledAt (tags : Tags) : Except Failure (Option Instant) :=
  match tags.get? Tag.deletionScheduled with
  | none => .ok none
  | some value => (Tag.readTime Tag.deletionScheduled value).map some

def setDeletionScheduledAt (tags : Tags) (moment : Option Instant) : Tags :=
  tags.put Tag.deletionScheduled (moment.map Instant.secondText)

/-- The key that the stack was provisioned with. Only the scheme has to be there. -/
def compatibility (tags : Tags) : Except Failure CompatibilityKey := do
  let scheme ← match tags.get? Tag.scheme with
    | none => throw (.invalidTag Tag.scheme "" "required tag is missing")
    | some value => Tag.readChoice Tag.scheme value
  let loadBalancerType ← match tags.get? Tag.loadBalancerType with
    | none => pure .application
    | some value => Tag.readChoice Tag.loadBalancerType value
  let addressFamily ← match tags.get? Tag.addressFamily with
    | none => pure .ipv4
    | some value => Tag.readChoice Tag.addressFamily value
  let http2 ← match tags.get? Tag.http2 with
    | none => pure true
    | some value => Tag.readFlag Tag.http2 value
  return {
    scheme, loadBalancerType, addressFamily, http2
    securityGroup := (tags.get? Tag.securityGroup).getD ""
    sslPolicy := (tags.get? Tag.sslPolicy).getD ""
    webAcl := (tags.get? Tag.webAcl).filter fun value => !value.isEmpty }

def setCompatibility (tags : Tags) (key : CompatibilityKey) : Tags :=
  tags.insert Tag.scheme (Choice.name key.scheme)
    |>.insert Tag.securityGroup key.securityGroup
    |>.insert Tag.sslPolicy key.sslPolicy
    |>.insert Tag.loadBalancerType (Choice.name key.loadBalancerType)
    |>.insert Tag.addressFamily (Choice.name key.addressFamily)
    |>.insert Tag.http2 (Tag.flagText key.http2)
    |> fun tags => Tags.put tags Tag.webAcl key.webAcl

def alarmHash? (tags : Tags) : Option String := tags.get? Tag.alarmHash

def setAlarmHash (tags : Tags) (hash : Option String) : Tags := tags.put Tag.alarmHash hash

def ofDocument? : Document → Option Tags := Document.table? Document.text?

def json (tags : Tags) : Json :=
  .object (tags.entries.map fun (key, value) => (key, .text value))

end Tags

namespace Schedule

def live (schedule : Schedule) (now : Instant) : Schedule :=
  schedule.filter fun _ removal => removal.all (now < ·)

end Schedule

end IngressControl
