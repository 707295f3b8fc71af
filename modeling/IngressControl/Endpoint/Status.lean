import IngressControl.Endpoint.Basic
/-!
The status documents in which the kinds of endpoints report their address.
-/

namespace IngressControl

namespace EndpointKind

def statusDocument (kind : EndpointKind) (address : String) : Json :=
  let hostname : Json := .object [("hostname", .text address)]
  let balancer : Json :=
    match kind with
    | .ingress => .object [("ingress", .list [hostname])]
    | .routeGroup => .object [("routeGroup", .list [hostname])]
    | .fabricGateway => hostname
  .object [("status", .object [("loadBalancer", balancer)])]

def reportedAddress? (kind : EndpointKind) (document : Json) : Option String := do
  let balancer ← (← document.member? "status").member? "loadBalancer"
  let holder ← match kind with
    | .ingress => (← balancer.member? "ingress").item? 0
    | .routeGroup => (← balancer.member? "routeGroup").item? 0
    | .fabricGateway => some balancer
  (← holder.member? "hostname").text?

@[simp] theorem reportedAddress?_statusDocument (kind : EndpointKind) (address : String) :
    kind.reportedAddress? (kind.statusDocument address) = some address := by
  cases kind <;> rfl

end EndpointKind

end IngressControl
