import IngressControl.Alarm.Basic
import IngressControl.Failure
import IngressControl.Settings.Basic
import IngressControl.Yaml.Reading
/-!
Manifests: YAML texts that declare endpoints and resources.

Most settings of a declared endpoint may be left out and are then taken from the controller.
-/

namespace IngressControl

structure EndpointDefaults where
  loadBalancerType : LoadBalancerType
  addressFamily : AddressFamily
  clusterLocalDomain : String
  deriving DecidableEq, Repr

def EndpointDefaults.ofSettings (settings : ControllerSettings) : EndpointDefaults where
  loadBalancerType := settings.defaultLoadBalancerType
  addressFamily := settings.defaultAddressFamily
  clusterLocalDomain := settings.clusterLocalDomain

structure EndpointEntry where
  kind : EndpointKind := .ingress
  space : String
  name : String
  hostnames : List String := []
  certificateId : Option CertificateId := none
  scheme : Option Scheme := none
  shared : Option Bool := none
  sslPolicy : Option String := none
  securityGroup : Option String := none
  loadBalancerType : Option LoadBalancerType := none
  addressFamily : Option AddressFamily := none
  http2 : Option Bool := none
  webAcl : Option String := none
  skipDnsRewrite : Option Bool := none
  deriving DecidableEq, Repr

structure Manifest where
  endpoints : List EndpointEntry := []
  resources : List ConfigResource := []
  deriving DecidableEq

namespace EndpointEntry

def ofDocument? (document : Document) : Option EndpointEntry := do
  let [kind, space, name, hostnames, certificateId, scheme, shared, sslPolicy, securityGroup,
      loadBalancerType, addressFamily, http2, webAcl, skipDnsRewrite] ← document.fields?
        ["kind", "namespace", "name", "hostnames", "certificateArn", "scheme", "shared",
          "sslPolicy", "securityGroup", "loadBalancerType", "ipAddressType", "http2", "wafWebAclId",
          "skipDnsRewrite"] | none
  return {
    kind := ← kind.orElse .ingress Choice.ofDocument?
    space := ← space.required Document.text?
    name := ← name.required Document.text?
    hostnames := ← hostnames.orElse [] (Document.list? Document.text?)
    certificateId := ← certificateId.optionalOr Document.text?
    scheme := ← scheme.optionalOr Choice.ofDocument?
    shared := ← shared.optionalOr Document.flag?
    sslPolicy := ← sslPolicy.optionalOr Document.text?
    securityGroup := ← securityGroup.optionalOr Document.text?
    loadBalancerType := ← loadBalancerType.optionalOr Choice.ofDocument?
    addressFamily := ← addressFamily.optionalOr Choice.ofDocument?
    http2 := ← http2.optionalOr Document.flag?
    webAcl := ← webAcl.optionalOr Document.text?
    skipDnsRewrite := ← skipDnsRewrite.optionalOr Document.flag? }

def json (entry : EndpointEntry) : Json :=
  .object
    [("kind", Choice.json entry.kind),
      ("namespace", .text entry.space),
      ("name", .text entry.name),
      ("hostnames", .texts entry.hostnames),
      ("certificateArn", .optional entry.certificateId),
      ("scheme", entry.scheme.elim .null Choice.json),
      ("shared", entry.shared.elim .null .boolean),
      ("sslPolicy", .optional entry.sslPolicy),
      ("securityGroup", .optional entry.securityGroup),
      ("loadBalancerType", entry.loadBalancerType.elim .null Choice.json),
      ("ipAddressType", entry.addressFamily.elim .null Choice.json),
      ("http2", entry.http2.elim .null .boolean),
      ("wafWebAclId", .optional entry.webAcl),
      ("skipDnsRewrite", entry.skipDnsRewrite.elim .null .boolean)]

def id (entry : EndpointEntry) : EndpointId := ⟨entry.kind, entry.space, entry.name⟩

def unknownPolicy? (entry : EndpointEntry) : Option String :=
  entry.sslPolicy.filter fun policy => !isKnownSslPolicy policy

def isClusterLocal (entry : EndpointEntry) (domain : String) : Bool :=
  !entry.hostnames.isEmpty && !domain.isEmpty && entry.hostnames.all (Text.endsWith domain)

/-- The declared endpoint. An unknown policy does not count, and an endpoint of the cluster's own
domain keeps its address unless it says otherwise. -/
def endpoint (entry : EndpointEntry) (defaults : EndpointDefaults) : Endpoint where
  id := entry.id
  hostnames := entry.hostnames
  certificateId := entry.certificateId.filter fun id => !id.isEmpty
  scheme := entry.scheme.getD .internetFacing
  shared := entry.shared.getD true
  sslPolicy := entry.sslPolicy.filter isKnownSslPolicy
  securityGroup := entry.securityGroup.getD ""
  loadBalancerType := entry.loadBalancerType.getD defaults.loadBalancerType
  addressFamily := entry.addressFamily.getD defaults.addressFamily
  http2 := entry.http2.getD true
  webAcl := entry.webAcl.filter fun acl => !acl.isEmpty
  skipDnsRewrite := entry.skipDnsRewrite.getD (entry.isClusterLocal defaults.clusterLocalDomain)

end EndpointEntry

namespace Manifest

def ofDocument? (document : Document) : Option Manifest := do
  let [endpoints, resources] ← document.fields? ["endpoints", "configResources"] | none
  return {
    endpoints := ← endpoints.orElse [] (Document.list? EndpointEntry.ofDocument?)
    resources := ← resources.orElse [] (Document.list? ConfigResource.ofDocument?) }

def json (manifest : Manifest) : Json :=
  .object
    [("endpoints", .list (manifest.endpoints.map EndpointEntry.json)),
      ("configResources", .list (manifest.resources.map ConfigResource.json))]

def ofText (text : String) : Except Failure Manifest :=
  match (Yaml.document? text).bind ofDocument? with
  | some manifest => .ok manifest
  | none => .error (Failure.yamlText.within "endpoint manifest")

end Manifest

end IngressControl
