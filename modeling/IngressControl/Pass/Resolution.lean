import IngressControl.Certificate.Selection
import IngressControl.Placement
/-!
Finding the certificates of endpoints.

An endpoint with a certificate of its own keeps that; any other needs one for each of its
hostnames outside the cluster's domain. Endpoints left without any take no further part.
-/

namespace IngressControl

structure Miss where
  hostname : String
  failure : Failure
  deriving DecidableEq, Repr

structure Findings where
  certificates : KeySet CertificateId := {}
  misses : List Miss := []
  deriving DecidableEq

structure Resolution where
  resolved : List ResolvedEndpoint := []
  problems : List Problem := []
  misses : List (EndpointId × Miss) := []

namespace Findings

def ofHostnames (snapshot : List Certificate) (now : Instant) (findings : Findings) :
    List String → Except TimeOverflow Findings
  | [] => .ok findings
  | hostname :: rest => do
      match ← Certificate.best snapshot hostname now with
      | .ok certificate =>
          ofHostnames snapshot now
            { findings with certificates := findings.certificates.add certificate.id } rest
      | .error failure =>
          ofHostnames snapshot now
            { findings with misses := findings.misses ++ [⟨hostname, failure⟩] } rest

def ofEndpoint (snapshot : List Certificate) (localDomain : String) (now : Instant)
    (endpoint : Endpoint) : Except TimeOverflow Findings :=
  match endpoint.certificateId with
  | some id => .ok { certificates := KeySet.ofList [id] }
  | none => ofHostnames snapshot now {} (endpoint.certificateHostnames localDomain)

/-- The problems of an endpoint with these findings: its misses, or that it needs no certificate
at all. -/
def problems (findings : Findings) (id : EndpointId) : List Problem :=
  if findings.certificates.isEmpty && findings.misses.isEmpty then
    [Problem.ofEndpoint id.text
      (.invalidField "endpoint has no hostname needing a certificate" "hostnames")]
  else findings.misses.map fun miss => Problem.ofEndpoint id.text miss.failure

end Findings

namespace Resolution

def add (resolution : Resolution) (endpoint : Endpoint) (findings : Findings) : Resolution where
  resolved :=
    if findings.certificates.isEmpty then resolution.resolved
    else resolution.resolved ++ [⟨endpoint, findings.certificates⟩]
  problems := resolution.problems ++ findings.problems endpoint.id
  misses := resolution.misses ++ findings.misses.map (endpoint.id, ·)

def ofEndpoints (snapshot : List Certificate) (localDomain : String) (now : Instant)
    (resolution : Resolution) : List Endpoint → Except TimeOverflow Resolution
  | [] => .ok resolution
  | endpoint :: rest => do
      let findings ← Findings.ofEndpoint snapshot localDomain now endpoint
      ofEndpoints snapshot localDomain now (resolution.add endpoint findings) rest

end Resolution

end IngressControl
