import IngressControl.Alarm.Basic
import IngressControl.Stack.Status
import IngressControl.Stack.Tags
/-!
Provisioned stacks, what their tags say, and the requests by which stacks are created and
updated.
-/

namespace IngressControl

abbrev StackName := String
abbrev InstanceId := String

structure Stack where
  name : StackName
  status : StackStatus
  dnsName : Option String
  targetGroup : Option String
  createdAt : Instant
  tags : Tags
  deriving DecidableEq

structure StackSpec where
  name : StackName
  key : CompatibilityKey
  certificates : List CertificateId
  /-- Without a value the alarms of the stack stay as they are. -/
  alarms : Option AlarmSet
  tags : Tags
  deriving DecidableEq

structure ObservedStack where
  stack : Stack
  key : CompatibilityKey
  shared : Bool
  owner : Option EndpointId
  certificates : Schedule
  deletionScheduledAt : Option Instant
  deriving DecidableEq

namespace Stack

def age (stack : Stack) (now : Instant) : Span := now.since stack.createdAt

def address? (stack : Stack) : Option String :=
  if stack.status.isComplete then stack.dnsName.filter fun name => !name.isEmpty else none

def ofDocument? (document : Document) : Option Stack := do
  let [name, status, dnsName, targetGroup, createdAt, tags] ← document.fields?
    ["name", "status", "dns_name", "target_group", "created_at", "tags"] | none
  return {
    name := ← name.required Document.text?
    status := ← status.required Choice.ofDocument?
    dnsName := ← dnsName.optional Document.text?
    targetGroup := ← targetGroup.optional Document.text?
    createdAt := ← createdAt.required Instant.ofDocument?
    tags := ← tags.required Tags.ofDocument? }

def json (stack : Stack) : Json :=
  .object
    [("name", .text stack.name),
      ("status", Choice.json stack.status),
      ("dns_name", .optional stack.dnsName),
      ("target_group", .optional stack.targetGroup),
      ("created_at", stack.createdAt.json),
      ("tags", Tags.json stack.tags)]

end Stack

namespace StackSpec

def ofDocument? (document : Document) : Option StackSpec := do
  let [name, key, certificates, alarms, tags] ← document.fields?
    ["name", "key", "certificates", "alarms", "tags"] | none
  return {
    name := ← name.required Document.text?
    key := ← key.required CompatibilityKey.ofDocument?
    certificates := ← certificates.required (Document.list? Document.text?)
    alarms := ← alarms.optional AlarmSet.ofDocument?
    tags := ← tags.required Tags.ofDocument? }

def json (spec : StackSpec) : Json :=
  .object
    [("name", .text spec.name),
      ("key", spec.key.json),
      ("certificates", .texts spec.certificates),
      ("alarms", spec.alarms.elim .null AlarmSet.json),
      ("tags", Tags.json spec.tags)]

end StackSpec

namespace ObservedStack

/-- Reads the tags of a stack. A dedicated stack must have an owner. -/
def ofStack (stack : Stack) : Except Failure ObservedStack := do
  let key ← Tags.compatibility stack.tags
  let shared ← Tags.shared stack.tags
  let owner ← Tags.owner stack.tags
  if !shared && owner.isNone then
    throw (.invalidTag Tag.owner "" "dedicated stack has no owner")
  let certificates ← Tags.certificates stack.tags
  let deletionScheduledAt ← Tags.deletionScheduledAt stack.tags
  return { stack, key, shared, owner, certificates, deletionScheduledAt }

def name (observed : ObservedStack) : StackName := observed.stack.name

def alarmHash? (observed : ObservedStack) : Option String := Tags.alarmHash? observed.stack.tags

def hasPendingCertificates (observed : ObservedStack) (now : Instant) : Bool :=
  observed.certificates.values.any fun removal => removal.any (now < ·)

def isPlaceable (observed : ObservedStack) : Bool :=
  !(observed.stack.status.isFailed || observed.stack.status.isDeleting)

end ObservedStack

end IngressControl
