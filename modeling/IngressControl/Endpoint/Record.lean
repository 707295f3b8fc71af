import IngressControl.Endpoint.Basic
/-!
Endpoints and their identities as records.
-/

namespace IngressControl

def Json.optional (value : Option String) : Json := value.elim .null .text

def Json.texts (values : List String) : Json := .list (values.map .text)

namespace EndpointId

def ofDocument? (document : Document) : Option EndpointId := do
  let [kind, space, name] ← document.fields? ["kind", "namespace", "name"] | none
  return {
    kind := ← kind.required Choice.ofDocument?
    space := ← space.required Document.text?
    name := ← name.required Document.text? }

def json (id : EndpointId) : Json :=
  .object [("kind", Choice.json id.kind), ("namespace", .text id.space), ("name", .text id.name)]

end EndpointId

namespace Endpoint

def ofDocument? (document : Document) : Option Endpoint := do
  let [id, hostnames, certificateId, scheme, shared, sslPolicy, securityGroup, loadBalancerType,
      addressFamily, http2, webAcl, skipDnsRewrite, statusAddress] ← document.fields?
        ["id", "hostnames", "certificateId", "scheme", "shared", "sslPolicy", "securityGroup",
          "loadBalancerType", "ipAddressType", "http2", "wafWebAclId", "skipDnsRewrite",
          "statusAddress"] | none
  return {
    id := ← id.required EndpointId.ofDocument?
    hostnames := ← hostnames.orElse [] (Document.list? Document.text?)
    certificateId := ← certificateId.optionalOr Document.text?
    scheme := ← scheme.orElse .internetFacing Choice.ofDocument?
    shared := ← shared.orElse true Document.flag?
    sslPolicy := ← sslPolicy.optionalOr Document.text?
    securityGroup := ← securityGroup.orElse "" Document.text?
    loadBalancerType := ← loadBalancerType.orElse .application Choice.ofDocument?
    addressFamily := ← addressFamily.orElse .ipv4 Choice.ofDocument?
    http2 := ← http2.orElse true Document.flag?
    webAcl := ← webAcl.optionalOr Document.text?
    skipDnsRewrite := ← skipDnsRewrite.orElse false Document.flag?
    statusAddress := ← statusAddress.optionalOr Document.text? }

def json (endpoint : Endpoint) : Json :=
  .object
    [("id", endpoint.id.json),
      ("hostnames", .texts endpoint.hostnames),
      ("certificateId", .optional endpoint.certificateId),
      ("scheme", Choice.json endpoint.scheme),
      ("shared", .boolean endpoint.shared),
      ("sslPolicy", .optional endpoint.sslPolicy),
      ("securityGroup", .text endpoint.securityGroup),
      ("loadBalancerType", Choice.json endpoint.loadBalancerType),
      ("ipAddressType", Choice.json endpoint.addressFamily),
      ("http2", .boolean endpoint.http2),
      ("wafWebAclId", .optional endpoint.webAcl),
      ("skipDnsRewrite", .boolean endpoint.skipDnsRewrite),
      ("statusAddress", .optional endpoint.statusAddress)]

end Endpoint

end IngressControl
