import IngressControl.Choice
import IngressControl.Text.Cut
/-!
Endpoints: the hostnames that a cluster wants to be reachable, with the settings of the load
balancer they ask for.

An endpoint's identity is its kind, its namespace and its name, written
`kind/namespace/name`. Names may hold slashes; namespaces may not.
-/

namespace IngressControl

abbrev CertificateId := String

inductive EndpointKind where
  | ingress
  | routeGroup
  | fabricGateway
  deriving DecidableEq, Repr, Ord

instance : Choice EndpointKind where
  label := "EndpointKind"
  values := [.ingress, .routeGroup, .fabricGateway]
  name
    | .ingress => "ingress"
    | .routeGroup => "routegroup"
    | .fabricGateway => "fabricgateway"

inductive Scheme where
  | internetFacing
  | internal
  deriving DecidableEq, Repr, Ord

instance : Choice Scheme where
  label := "Scheme"
  values := [.internetFacing, .internal]
  name
    | .internetFacing => "internet-facing"
    | .internal => "internal"

inductive LoadBalancerType where
  | application
  | network
  deriving DecidableEq, Repr, Ord

instance : Choice LoadBalancerType where
  label := "LoadBalancerType"
  values := [.application, .network]
  name
    | .application => "application"
    | .network => "network"

inductive AddressFamily where
  | ipv4
  | dualstack
  deriving DecidableEq, Repr, Ord

instance : Choice AddressFamily where
  label := "IpAddressType"
  values := [.ipv4, .dualstack]
  name
    | .ipv4 => "ipv4"
    | .dualstack => "dualstack"

structure EndpointId where
  kind : EndpointKind
  space : String
  name : String
  deriving DecidableEq, Repr

namespace EndpointKind

instance : Std.TransOrd EndpointKind where
  eq_swap := by rintro (_ | _) (_ | _) <;> rfl
  isLE_trans := by rintro (_ | _) (_ | _) (_ | _) <;> decide

instance : Std.LawfulEqOrd EndpointKind where
  compare_self := by rintro (_ | _) <;> rfl
  eq_of_compare := by rintro (_ | _) (_ | _) <;> decide

end EndpointKind

namespace EndpointId

instance : Ord EndpointId :=
  ⟨compareLex (compareOn kind) (compareLex (compareOn space) (compareOn name))⟩

instance : Std.TransOrd EndpointId :=
  inferInstanceAs <| Std.TransCmp <|
    compareLex (compareOn kind) (compareLex (compareOn space) (compareOn name))

instance : Std.LawfulEqOrd EndpointId where
  eq_of_compare := by
    rintro ⟨kind, space, name⟩ ⟨kind', space', name'⟩ same
    have same : ((compare kind kind').then ((compare space space').then (compare name name')))
        = .eq := same
    simp only [Ordering.then_eq_eq] at same
    obtain ⟨kinds, spaces, names⟩ := same
    cases Std.LawfulEqCmp.eq_of_compare kinds
    cases Std.LawfulEqCmp.eq_of_compare spaces
    cases Std.LawfulEqCmp.eq_of_compare names
    rfl

def text (id : EndpointId) : String := Choice.name id.kind ++ "/" ++ id.space ++ "/" ++ id.name

/-- The identity that a text names. A text of another form is no identity; one of this form may
still name an unknown kind. -/
def ofText (text : String) : Except String EndpointId :=
  match Text.splitOnce? '/' text with
  | none => malformed
  | some (kind, rest) =>
      match Text.splitOnce? '/' rest with
      | none => malformed
      | some (space, name) =>
          if space.isEmpty || name.isEmpty then malformed
          else (Choice.ofName kind).map fun kind => ⟨kind, space, name⟩
where
  malformed : Except String EndpointId := .error ("Invalid endpoint identity: " ++ text)

end EndpointId

structure Endpoint where
  id : EndpointId
  hostnames : List String := []
  certificateId : Option CertificateId := none
  scheme : Scheme := .internetFacing
  shared : Bool := true
  /-- The policy asked for. Without one the endpoint takes the configured policy and may join a
  load balancer with any. -/
  sslPolicy : Option String := none
  securityGroup : String := ""
  loadBalancerType : LoadBalancerType := .application
  addressFamily : AddressFamily := .ipv4
  http2 : Bool := true
  webAcl : Option String := none
  skipDnsRewrite : Bool := false
  statusAddress : Option String := none
  deriving DecidableEq, Repr

namespace Endpoint

def policyOr (endpoint : Endpoint) (configured : String) : String :=
  endpoint.sslPolicy.getD configured

/-- The hostnames that need a certificate: those outside the cluster's own domain. -/
def certificateHostnames (endpoint : Endpoint) (localDomain : String) : List String :=
  endpoint.hostnames.filter fun hostname =>
    localDomain.isEmpty || !Text.endsWith localDomain hostname

end Endpoint

end IngressControl
