import IngressControl.Proofs.Pass.Demand
import IngressControl.Proofs.Pass.Reporting
import IngressControl.Proofs.Placement.Growth
/-!
When an endpoint keeps the address of a stack that a pass takes away.

A load balancer whose stack is complete and old enough gives its address to every endpoint placed on
it, and it is not one that the pass deletes. So an endpoint is left with the address of a deleted
stack only if its own load balancer has no stack yet, or one that is too young.
-/

namespace IngressControl

namespace Cloud

/-- New and updated stacks are complete at once, and all stacks are complete, stored under their
names and have the address made of that. -/
structure Settled (cloud : Cloud) : Prop where
  atOnce : cloud.settlesAtOnce = true
  named : cloud.Named
  complete : ∀ name stack, cloud.provisioned.get? name = some stack →
    stack.status.isComplete = true ∧ stack.dnsName = some (dnsName name)

variable {cloud after start : Cloud} {createdAt : Instant} {request : StackRequest}
  {requests : List StackRequest}

theorem perform_settled (settled : cloud.Settled)
    (granted : cloud.perform createdAt request = .ok after) : after.Settled := by
  refine ⟨(perform_settlesAtOnce granted).trans settled.atOnce, perform_named settled.named granted,
    perform_pointwise settled.complete ?_ ?_ ?_ granted⟩
  · intro spec _
    rw [settled.atOnce]
    exact ⟨rfl, rfl⟩
  · intro spec stack _ before
    rw [settled.atOnce]
    exact ⟨rfl, before.2⟩
  · exact fun name moment stack _ before => before

end Cloud

namespace Orchestrator

def Keyed (orchestrator : Orchestrator) : Prop :=
  ∀ id endpoint, orchestrator.endpoints.get? id = some endpoint → endpoint.id = id

theorem list_keyed {before after : Orchestrator} {files : Files} {endpoints : List Endpoint}
    (keyed : before.Keyed) (listed : before.list files = .ok (endpoints, after)) : after.Keyed := by
  obtain ⟨_, reloaded, _⟩ := list_eq_ok_iff.mp listed
  rw [reload] at reloaded
  split at reloaded
  · cases reloaded
    exact keyed
  · obtain ⟨manifest, _, same⟩ := Attempt.bind_eq_ok_iff.mp reloaded
    cases same
    intro id endpoint found
    rcases Table.get?_insertAll found with blank | stated
    · cases blank
    · obtain ⟨entry, _, same⟩ := List.mem_map.mp stated
      cases same
      rfl

theorem exists_current {orchestrator : Orchestrator} (keyed : orchestrator.Keyed) {id : EndpointId}
    (declared : orchestrator.endpoints.contains id = true) :
    ∃ endpoint ∈ orchestrator.current, endpoint.id = id := by
  obtain ⟨endpoint, found⟩ := Table.contains_iff.mp declared
  exact ⟨_, List.mem_map_of_mem (Table.mem_values_iff.mpr ⟨id, found⟩), keyed id endpoint found⟩

structure Writable (orchestrator : Orchestrator) (id : EndpointId) : Prop where
  permitted : orchestrator.failing.contains "update_endpoint_status" = false
  declared : orchestrator.endpoints.contains id = true

theorem writable_of_reported {before after : Orchestrator} {id : EndpointId}
    (reported : Reported before after) (writable : before.Writable id) : after.Writable id where
  permitted := by
    have same : after.failing = before.failing := congrArg (·.failing) (show _ = _ from reported)
    rw [same]
    exact writable.permitted
  declared := by
    have same : after.endpoints = before.endpoints := congrArg (·.endpoints) (show _ = _ from reported)
    rw [same]
    exact writable.declared

theorem updateStatus_of_writable {orchestrator : Orchestrator} {id : EndpointId}
    (writable : orchestrator.Writable id) (address : String) :
    (∃ after, orchestrator.updateStatus id address = .ok after) ∨
      orchestrator.updateStatus id address = .error (.noUpdateNeeded id.text) ∧
        orchestrator.reportedAddress? id = some address := by
  have permitted : orchestrator.permit "update_endpoint_status" = .ok () := by
    rw [permit, writable.permitted]
    rfl
  rw [updateStatus, permitted]
  by_cases reported : orchestrator.reportedAddress? id = some address
  · refine .inr ⟨?_, reported⟩
    simp [writable.declared, reported, bind, Except.bind, throw, throwThe, MonadExceptOf.throw]
  · left
    simp only [writable.declared, reported, bind, Except.bind]
    exact ⟨_, rfl⟩

end Orchestrator

namespace StatusWork

variable {minAge : Span} {now : Instant} {id : EndpointId} {descriptors : List Descriptor}

def Given (minAge : Span) (now : Instant) (id : EndpointId) (descriptors : List Descriptor)
    (work : StatusWork) : Prop :=
  ∃ descriptor ∈ descriptors, ∃ address existing endpoint,
    Gives false minAge now id address descriptor existing endpoint ∧
    work.orchestrator.reportedAddress? id = some address

end StatusWork

namespace Controller

variable {controller : Controller} {circumstances : Circumstances} {world : World}

/-- Addresses can be written, and every endpoint that is listed wants its own and is resolved to
certificates that fit one load balancer. -/
structure Favours (controller : Controller) (circumstances : Circumstances) (world : World) :
    Prop where
  permitted : world.orchestrator.failing.contains "update_endpoint_status" = false
  keyed : world.orchestrator.Keyed
  placeable : ∀ endpoints orchestrator,
    world.orchestrator.list circumstances.files = .ok (endpoints, orchestrator) →
      ∀ endpoint ∈ endpoints, endpoint.skipDnsRewrite = false ∧
        ∃ findings, Findings.ofEndpoint circumstances.snapshot
            controller.settings.clusterLocalDomain circumstances.now endpoint = .ok findings ∧
          Placement.Fits controller.placementPolicy findings.certificates

theorem exists_home {endpoints : List Endpoint} {orchestrator : Orchestrator}
    {resolution : Resolution} {listed : List Stack} {alarms : Option AlarmSet}
    (favours : Favours controller circumstances world)
    (prepared : Prepared controller circumstances world endpoints orchestrator resolution listed)
    {id : EndpointId} (declared : orchestrator.endpoints.contains id = true) :
    ∃ descriptor ∈ (Placement.ofStacks controller.placementPolicy listed resolution.resolved alarms
        circumstances.now).desired,
      ∃ endpoint ∈ descriptor.endpoints, endpoint.id = id ∧ endpoint.skipDnsRewrite = false := by
  have keyed := Orchestrator.list_keyed favours.keyed prepared.endpoints_listed
  obtain ⟨_, _, rfl⟩ := Orchestrator.list_eq_ok_iff.mp prepared.endpoints_listed
  obtain ⟨endpoint, current, rfl⟩ := Orchestrator.exists_current keyed declared
  have placeable := favours.placeable _ _ prepared.endpoints_listed
  obtain ⟨_, findings, found, fits⟩ := placeable endpoint current
  have handed := (Resolution.ofEndpoints_hands prepared.resolved).2 endpoint current findings found
    fits.1
  obtain ⟨descriptor, wanted, settles⟩ := Placement.settled_placeAll
    (Placement.seeded listed alarms) (Placement.byIdentity resolution.resolved) _
    (Placement.mem_byIdentity.mpr handed) fits
  obtain ⟨key, present⟩ := Table.isEmpty_eq_false_iff.mp fits.1
  obtain ⟨other, member, same⟩ := Descriptor.exists_mem_endpoints ⟨key, settles.entered key present⟩
  refine ⟨descriptor, wanted, other, member, same, ?_⟩
  -- Another record may stand for the endpoint, but that is listed as well.
  obtain ⟨resolved, known, rfl, _⟩ := Placement.ofStacks_furnished descriptor
    (List.mem_filter.mp wanted).1 other (Descriptor.serves_of_mem_endpoints member)
  have listed' := (Resolution.ofEndpoints_covers prepared.resolved).handed.subset
    (List.mem_map_of_mem known)
  exact (placeable _ listed').1

end Controller

end IngressControl
