import IngressControl.Endpoint.Record
/-!
What endpoints must agree on to share a load balancer.
-/

namespace IngressControl

structure CompatibilityKey where
  scheme : Scheme
  securityGroup : String
  sslPolicy : String
  loadBalancerType : LoadBalancerType
  addressFamily : AddressFamily
  http2 : Bool
  webAcl : Option String
  deriving DecidableEq, Repr

namespace CompatibilityKey

def ofEndpoint (endpoint : Endpoint) (configuredPolicy : String) : CompatibilityKey where
  scheme := endpoint.scheme
  securityGroup := endpoint.securityGroup
  sslPolicy := endpoint.policyOr configuredPolicy
  loadBalancerType := endpoint.loadBalancerType
  addressFamily := endpoint.addressFamily
  http2 := endpoint.http2
  webAcl := endpoint.webAcl

/-- Whether an endpoint can run behind a load balancer with this key. The policy has to agree
only when the endpoint asks for one. -/
def admits (key : CompatibilityKey) (endpoint : Endpoint) : Bool :=
  endpoint.sslPolicy.all (· = key.sslPolicy)
    && key.scheme = endpoint.scheme
    && key.securityGroup = endpoint.securityGroup
    && key.loadBalancerType = endpoint.loadBalancerType
    && key.addressFamily = endpoint.addressFamily
    && key.http2 = endpoint.http2
    && key.webAcl = endpoint.webAcl

def ofDocument? (document : Document) : Option CompatibilityKey := do
  let [scheme, securityGroup, sslPolicy, loadBalancerType, addressFamily, http2, webAcl] ←
    document.fields? ["scheme", "securityGroup", "sslPolicy", "loadBalancerType",
      "ipAddressType", "http2", "wafWebAclId"] | none
  return {
    scheme := ← scheme.required Choice.ofDocument?
    securityGroup := ← securityGroup.required Document.text?
    sslPolicy := ← sslPolicy.required Document.text?
    loadBalancerType := ← loadBalancerType.required Choice.ofDocument?
    addressFamily := ← addressFamily.required Choice.ofDocument?
    http2 := ← http2.required Document.flag?
    webAcl := ← webAcl.optional Document.text? }

def json (key : CompatibilityKey) : Json :=
  .object
    [("scheme", Choice.json key.scheme),
      ("securityGroup", .text key.securityGroup),
      ("sslPolicy", .text key.sslPolicy),
      ("loadBalancerType", Choice.json key.loadBalancerType),
      ("ipAddressType", Choice.json key.addressFamily),
      ("http2", .boolean key.http2),
      ("wafWebAclId", .optional key.webAcl)]

end CompatibilityKey

end IngressControl
