import IngressControl.Stack.Basic
/-!
Load balancers as a pass wants them.

A descriptor starts empty or from an existing stack, and gathers endpoints under the
certificates that they use. From it follow the certificates to attach, the attributes in which
the existing stack has drifted, and the request that mends them.
-/

namespace IngressControl

structure Descriptor where
  key : CompatibilityKey
  shared : Bool
  owner : Option EndpointId
  certificates : Table CertificateId (List Endpoint) := {}
  /-- Without a value the alarms are not known in this pass. -/
  alarms : Option AlarmSet
  existing : Option ObservedStack := none
  deriving DecidableEq

inductive Drift where
  | stack
  | compatibility
  | ownership
  | certificates
  | alarms
  | deletionSchedule
  deriving DecidableEq, Repr

def Drift.name : Drift → String
  | .stack => "stack"
  | .compatibility => "compatibility"
  | .ownership => "ownership"
  | .certificates => "certificates"
  | .alarms => "alarms"
  | .deletionSchedule => "deletion_schedule"

namespace Descriptor

def ofShared (key : CompatibilityKey) (alarms : Option AlarmSet) : Descriptor :=
  { key, shared := true, owner := none, alarms }

def dedicated (key : CompatibilityKey) (owner : EndpointId) (alarms : Option AlarmSet) :
    Descriptor :=
  { key, shared := false, owner := some owner, alarms }

def ofObserved (observed : ObservedStack) (alarms : Option AlarmSet) : Descriptor :=
  { key := observed.key, shared := observed.shared, owner := observed.owner, alarms
    existing := some observed }

def stackName? (descriptor : Descriptor) : Option StackName :=
  descriptor.existing.map ObservedStack.name

def hasEndpoints (descriptor : Descriptor) : Bool := !descriptor.certificates.isEmpty

def addFirst (known : Table EndpointId Endpoint) : List Endpoint → Table EndpointId Endpoint
  | [] => known
  | endpoint :: rest =>
      addFirst (if known.contains endpoint.id then known else known.insert endpoint.id endpoint) rest

def endpoints (descriptor : Descriptor) : List Endpoint :=
  (addFirst {} descriptor.certificates.values.flatten).values

def endpointsText (descriptor : Descriptor) : String :=
  String.intercalate "," (descriptor.endpoints.map fun endpoint => endpoint.id.text)

/-- The certificates that take a place on the listener: those in use and those that the existing
stack keeps until after `now`. -/
def occupied (descriptor : Descriptor) (now : Instant) : KeySet CertificateId :=
  let used := KeySet.ofList descriptor.certificates.keys
  match descriptor.existing with
  | none => used
  | some existing => used.addAll (Schedule.live existing.certificates now).keys

def certificateCount (descriptor : Descriptor) (now : Instant) : Nat :=
  (descriptor.occupied now).size

def holdsAny (descriptor : Descriptor) (certificates : KeySet CertificateId) (now : Instant) :
    Bool :=
  certificates.keys.any fun id => (descriptor.occupied now).contains id

def belongs (descriptor : Descriptor) (endpoint : Endpoint) : Bool :=
  if endpoint.shared then descriptor.shared
  else !descriptor.shared && descriptor.owner = some endpoint.id

def accepts (descriptor : Descriptor) (endpoint : Endpoint) (certificates : KeySet CertificateId)
    (limit : Nat) (now : Instant) : Bool :=
  descriptor.belongs endpoint && descriptor.key.admits endpoint
    && descriptor.existing.all ObservedStack.isPlaceable
    && ((descriptor.occupied now).addAll certificates.keys).size ≤ limit

def enter (certificates : Table CertificateId (List Endpoint)) (endpoint : Endpoint)
    (id : CertificateId) : Table CertificateId (List Endpoint) :=
  certificates.insert id (((certificates.get? id).getD []) ++ [endpoint])

def enterAll (certificates : Table CertificateId (List Endpoint)) (endpoint : Endpoint) :
    List CertificateId → Table CertificateId (List Endpoint)
  | [] => certificates
  | id :: rest => enterAll (enter certificates endpoint id) endpoint rest

def add (descriptor : Descriptor) (endpoint : Endpoint) (certificates : KeySet CertificateId) :
    Descriptor :=
  { descriptor with certificates := enterAll descriptor.certificates endpoint certificates.keys }

/-- Adds the certificates of an existing stack that no endpoint uses: those with a removal time
to come keep it, those without one get one, and those past it are left out. -/
def retire (schedule : Schedule) (now : Instant) (grace : Span) :
    List (CertificateId × Option Instant) → Except TimeOverflow Schedule
  | [] => .ok schedule
  | (id, removal) :: rest =>
      if schedule.contains id then retire schedule now grace rest
      else
        match removal with
        | none =>
            match now.plus? grace with
            | none => .error .sum
            | some moment => retire (schedule.insert id (some moment)) now grace rest
        | some moment =>
            if now < moment then retire (schedule.insert id (some moment)) now grace rest
            else retire schedule now grace rest

def desiredCertificates (descriptor : Descriptor) (now : Instant) (grace : Span) :
    Except TimeOverflow Schedule :=
  let used : Schedule := descriptor.certificates.mapValues fun _ _ => none
  match descriptor.existing with
  | none => .ok used
  | some existing => retire used now grace existing.certificates.entries

/-- The alarm digest that the stack should carry. While the alarms are not known it keeps its
own. -/
def desiredAlarmHash (descriptor : Descriptor) : Option String :=
  match descriptor.alarms with
  | some alarms => AlarmSet.hash? alarms
  | none => descriptor.existing.bind ObservedStack.alarmHash?

def driftIf (part : Drift) (differs : Bool) : List Drift :=
  if differs then [part] else []

/-- The attributes in which an existing stack differs, in a fixed order, when it should carry the
certificates `wanted`. Alarms that are not known do not differ. -/
def driftFrom (descriptor : Descriptor) (existing : ObservedStack) (wanted : Schedule) :
    List Drift :=
  driftIf .compatibility (existing.key ≠ descriptor.key)
    ++ driftIf .ownership
        (existing.shared ≠ descriptor.shared ∨ existing.owner ≠ descriptor.owner)
    ++ driftIf .certificates (existing.certificates ≠ wanted)
    ++ driftIf .alarms
        (descriptor.alarms.isSome ∧ descriptor.desiredAlarmHash ≠ existing.alarmHash?)
    ++ driftIf .deletionSchedule existing.deletionScheduledAt.isSome

def drift (descriptor : Descriptor) (now : Instant) (grace : Span) :
    Except TimeOverflow (List Drift) :=
  match descriptor.existing with
  | none => .ok [.stack]
  | some existing =>
      (descriptor.desiredCertificates now grace).map (descriptor.driftFrom existing)

def tagsFor (descriptor : Descriptor) (cluster : String) (schedule : Schedule) : Tags :=
  let tags := Tags.setCompatibility (Tags.ownedBy cluster) descriptor.key
  let tags := Tags.setShared tags descriptor.shared
  let tags := Tags.setOwner tags descriptor.owner
  let tags := Tags.setCertificates tags schedule
  Tags.setAlarmHash tags descriptor.desiredAlarmHash

def spec (descriptor : Descriptor) (name : StackName) (cluster : String) (now : Instant)
    (grace : Span) : Except TimeOverflow StackSpec := do
  let schedule ← descriptor.desiredCertificates now grace
  return {
    name, key := descriptor.key
    certificates := schedule.keys
    alarms := descriptor.alarms
    tags := descriptor.tagsFor cluster schedule }

end Descriptor

end IngressControl
