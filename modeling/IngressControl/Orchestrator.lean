import IngressControl.Endpoint.Status
import IngressControl.Files
import IngressControl.Manifest
/-!
An orchestrator kept in memory: endpoints, their status documents and resources.

With a manifest file, every listing of endpoints reads it anew and takes endpoints and resources
from it; status documents stay.
-/

namespace IngressControl

structure ResourceRef where
  space : String
  name : String
  deriving DecidableEq, Repr

namespace ResourceRef

instance : Ord ResourceRef := ⟨compareLex (compareOn space) (compareOn name)⟩

instance : Std.TransOrd ResourceRef :=
  inferInstanceAs <| Std.TransCmp <| compareLex (compareOn space) (compareOn name)

instance : Std.LawfulEqOrd ResourceRef where
  eq_of_compare := by
    rintro ⟨space, name⟩ ⟨space', name'⟩ same
    have same : (compare space space').then (compare name name') = .eq := same
    simp only [Ordering.then_eq_eq] at same
    obtain ⟨spaces, names⟩ := same
    cases Std.LawfulEqCmp.eq_of_compare spaces
    cases Std.LawfulEqCmp.eq_of_compare names
    rfl

end ResourceRef

abbrev CrashMessage := Option String

structure Orchestrator where
  manifest : Option (String × EndpointDefaults) := none
  endpoints : Table EndpointId Endpoint := {}
  statuses : Table EndpointId Json := {}
  resources : Table ResourceRef ConfigResource := {}
  failing : KeySet String := {}
  /-- Set when listing endpoints crashes instead of failing. -/
  crash : Option CrashMessage := none

namespace Orchestrator

def permit (orchestrator : Orchestrator) (operation : String) : Except Failure Unit :=
  if orchestrator.failing.contains operation then
    .error (.orchestrator (operation ++ " failed (injected)"))
  else .ok ()

def upsert (orchestrator : Orchestrator) (endpoint : Endpoint) : Orchestrator :=
  { orchestrator with endpoints := orchestrator.endpoints.insert endpoint.id endpoint }

def remove (orchestrator : Orchestrator) (id : EndpointId) : Orchestrator :=
  { orchestrator with endpoints := orchestrator.endpoints.erase id }

def putResource (orchestrator : Orchestrator) (resource : ConfigResource) : Orchestrator :=
  { orchestrator with
    resources := orchestrator.resources.insert ⟨resource.space, resource.name⟩ resource }

def fail (orchestrator : Orchestrator) (operation : String) : Orchestrator :=
  { orchestrator with failing := orchestrator.failing.add operation }

def clearFailures (orchestrator : Orchestrator) : Orchestrator :=
  { orchestrator with failing := {} }

def reportedAddress? (orchestrator : Orchestrator) (id : EndpointId) : Option String :=
  (orchestrator.statuses.get? id).bind id.kind.reportedAddress?

def loadManifest (files : Files) (path : String) : Except Failure Manifest :=
  match files.readText? path with
  | some text => Manifest.ofText text
  | none => .error (Failure.file.within ("read " ++ path))

def reload (orchestrator : Orchestrator) (files : Files) : Except Failure Orchestrator :=
  match orchestrator.manifest with
  | none => .ok orchestrator
  | some (path, defaults) => do
      let manifest ← loadManifest files path
      let endpoints := manifest.endpoints.map fun entry => (entry.id, entry.endpoint defaults)
      let resources := manifest.resources.map fun resource =>
        ((⟨resource.space, resource.name⟩ : ResourceRef), resource)
      return { orchestrator with
        endpoints := Table.ofList endpoints, resources := Table.ofList resources }

def current (orchestrator : Orchestrator) : List Endpoint :=
  orchestrator.endpoints.values.map fun endpoint =>
    { endpoint with statusAddress := orchestrator.reportedAddress? endpoint.id }

def list (orchestrator : Orchestrator) (files : Files) :
    Except Failure (List Endpoint × Orchestrator) := do
  orchestrator.permit "list_endpoints"
  let orchestrator ← orchestrator.reload files
  return (orchestrator.current, orchestrator)

def updateStatus (orchestrator : Orchestrator) (id : EndpointId) (address : String) :
    Except Failure Orchestrator := do
  orchestrator.permit "update_endpoint_status"
  if !orchestrator.endpoints.contains id then throw (.notFound "endpoint" id.text)
  if orchestrator.reportedAddress? id = some address then throw (.noUpdateNeeded id.text)
  return { orchestrator with
    statuses := orchestrator.statuses.insert id (id.kind.statusDocument address) }

def getResource (orchestrator : Orchestrator) (space name : String) :
    Except Failure ConfigResource := do
  orchestrator.permit "get_config_resource"
  match orchestrator.resources.get? ⟨space, name⟩ with
  | some resource => return resource
  | none => throw (.notFound "config resource" (space ++ "/" ++ name))

end Orchestrator

end IngressControl
