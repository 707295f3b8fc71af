import IngressControl.Descriptor.Basic
import IngressControl.Report
/-!
Placing endpoints on load balancers.

Existing stacks come first, in the order of their names, so that endpoints stay where they are
served. Endpoints follow in the order of their identities. Each goes to the first load balancer
that accepts it and holds one of its certificates, otherwise to the first that accepts it,
otherwise to a new one.
-/

namespace IngressControl

structure ResolvedEndpoint where
  endpoint : Endpoint
  certificates : KeySet CertificateId
  deriving DecidableEq

structure PlacementPolicy where
  maxCertificates : Nat
  defaultSslPolicy : String
  deriving DecidableEq, Repr

structure Placement where
  descriptors : List Descriptor := []
  problems : List Problem := []
  deriving DecidableEq

namespace Placement

def desired (placement : Placement) : List Descriptor :=
  placement.descriptors.filter Descriptor.hasEndpoints

def orphaned (placement : Placement) : List ObservedStack :=
  (placement.descriptors.filter fun descriptor => !descriptor.hasEndpoints).filterMap
    Descriptor.existing

def refusal? (policy : PlacementPolicy) (certificates : KeySet CertificateId) : Option Failure :=
  if certificates.isEmpty then
    some (.invalidField "endpoint has no certificate" "hostnames")
  else if policy.maxCertificates < certificates.size then
    some <| .invalidField
      ("endpoint needs " ++ toString certificates.size ++ " certificates, a load balancer holds at most "
        ++ toString policy.maxCertificates) "hostnames"
  else none

def target? (policy : PlacementPolicy) (descriptors : List Descriptor) (resolved : ResolvedEndpoint)
    (now : Instant) : Option Nat :=
  let accepts := fun (descriptor : Descriptor) =>
    descriptor.accepts resolved.endpoint resolved.certificates policy.maxCertificates now
  (descriptors.findIdx? fun descriptor =>
      accepts descriptor && descriptor.holdsAny resolved.certificates now)
    <|> descriptors.findIdx? accepts

def fresh (policy : PlacementPolicy) (endpoint : Endpoint) (alarms : Option AlarmSet) : Descriptor :=
  let key := CompatibilityKey.ofEndpoint endpoint policy.defaultSslPolicy
  if endpoint.shared then .ofShared key alarms else .dedicated key endpoint.id alarms

def place (policy : PlacementPolicy) (alarms : Option AlarmSet) (now : Instant)
    (descriptors : List Descriptor) (resolved : ResolvedEndpoint) :
    Except Failure (List Descriptor) :=
  match refusal? policy resolved.certificates with
  | some failure => .error failure
  | none =>
      match target? policy descriptors resolved now with
      | some position =>
          .ok (descriptors.modify position fun descriptor =>
            descriptor.add resolved.endpoint resolved.certificates)
      | none =>
          .ok (descriptors ++
            [(fresh policy resolved.endpoint alarms).add resolved.endpoint resolved.certificates])

def placeAll (policy : PlacementPolicy) (alarms : Option AlarmSet) (now : Instant)
    (placement : Placement) : List ResolvedEndpoint → Placement
  | [] => placement
  | resolved :: rest =>
      match place policy alarms now placement.descriptors resolved with
      | .ok descriptors => placeAll policy alarms now { placement with descriptors } rest
      | .error failure =>
          let problem := Problem.ofEndpoint resolved.endpoint.id.text failure
          placeAll policy alarms now
            { placement with problems := placement.problems ++ [problem] } rest

def readable (listed : List Stack) : List ObservedStack :=
  listed.filterMap fun stack => (ObservedStack.ofStack stack).toOption

def unreadable (listed : List Stack) : List Problem :=
  listed.filterMap fun stack =>
    match ObservedStack.ofStack stack with
    | .ok _ => none
    | .error failure => some (Problem.ofStack stack.name failure)

def byName (observed : List ObservedStack) : List ObservedStack :=
  observed.mergeSort fun first second => (compare first.name second.name).isLE

def byIdentity (resolved : List ResolvedEndpoint) : List ResolvedEndpoint :=
  resolved.mergeSort fun first second => (compare first.endpoint.id second.endpoint.id).isLE

def seeded (listed : List Stack) (alarms : Option AlarmSet) : Placement where
  descriptors := (byName (readable listed)).map fun observed => .ofObserved observed alarms
  problems := unreadable listed

def ofStacks (policy : PlacementPolicy) (listed : List Stack) (endpoints : List ResolvedEndpoint)
    (alarms : Option AlarmSet) (now : Instant) : Placement :=
  placeAll policy alarms now (seeded listed alarms) (byIdentity endpoints)

end Placement

end IngressControl
