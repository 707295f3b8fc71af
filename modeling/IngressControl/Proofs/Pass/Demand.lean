import IngressControl.Pass.Basic
import IngressControl.Proofs.Pass.Resolution
import IngressControl.Proofs.Pass.Stages
import IngressControl.Proofs.Placement.Likeness
/-!
What a pass is asked to place, and that the next pass is asked for the same.

A pass changes nothing of the orchestrator but the status documents, and these show in the listing
of endpoints as reported addresses only. So the demand, seen without them, stays.
-/

namespace IngressControl

/-- The endpoints that a pass is to place, and the alarms to attach. -/
structure Demand where
  resolved : List ResolvedEndpoint
  alarms : Option AlarmSet

def Demand.unreported (demand : Demand) : Demand :=
  { demand with resolved := demand.resolved.map ResolvedEndpoint.unreported }

namespace Orchestrator

def forgetful (orchestrator : Orchestrator) : Orchestrator := { orchestrator with statuses := {} }

theorem current_forgetful (orchestrator : Orchestrator) :
    orchestrator.forgetful.current = orchestrator.current.map Endpoint.unreported := by
  rw [current, current, List.map_map]
  rfl

theorem reload_forgetful (orchestrator : Orchestrator) (files : Files) :
    orchestrator.forgetful.reload files = (orchestrator.reload files).map forgetful := by
  obtain ⟨manifest, endpoints, statuses, resources, failing, crash⟩ := orchestrator
  cases manifest with
  | none => rfl
  | some source =>
      simp only [reload, forgetful]
      cases loadManifest files source.1 with
      | error failure => rfl
      | ok manifest => rfl

theorem reload_reload {orchestrator after : Orchestrator} {files : Files}
    (loaded : orchestrator.reload files = .ok after) : after.reload files = .ok after := by
  obtain ⟨manifest, endpoints, statuses, resources, failing, crash⟩ := orchestrator
  cases manifest with
  | none =>
      cases loaded
      rfl
  | some source =>
      obtain ⟨manifest, read, same⟩ := Attempt.bind_eq_ok_iff.mp loaded
      cases same
      exact Attempt.bind_eq_ok_iff.mpr ⟨manifest, read, rfl⟩

theorem list_eq_ok_iff {orchestrator after : Orchestrator} {files : Files}
    {endpoints : List Endpoint} : orchestrator.list files = .ok (endpoints, after) ↔
      orchestrator.permit "list_endpoints" = .ok () ∧ orchestrator.reload files = .ok after ∧
        endpoints = after.current := by
  rw [list]
  constructor
  · intro done
    obtain ⟨_, permitted, done⟩ := Attempt.bind_eq_ok_iff.mp done
    obtain ⟨loaded, reloaded, same⟩ := Attempt.bind_eq_ok_iff.mp done
    cases same
    exact ⟨permitted, reloaded, rfl⟩
  · rintro ⟨permitted, reloaded, rfl⟩
    exact Attempt.bind_eq_ok_iff.mpr ⟨(), permitted, Attempt.bind_eq_ok_iff.mpr ⟨after, reloaded, rfl⟩⟩

theorem list_forgetful (orchestrator : Orchestrator) (files : Files) :
    orchestrator.forgetful.list files = (orchestrator.list files).map
      fun (endpoints, after) => (endpoints.map Endpoint.unreported, after.forgetful) := by
  have permitted : orchestrator.forgetful.permit "list_endpoints"
      = orchestrator.permit "list_endpoints" := rfl
  rw [list, list, permitted, reload_forgetful]
  cases orchestrator.permit "list_endpoints" with
  | error failure => rfl
  | ok permission =>
      cases orchestrator.reload files with
      | error failure => rfl
      | ok after =>
          simp only [bind, Except.bind, Except.map, current_forgetful]
          rfl

theorem list_list {orchestrator after : Orchestrator} {files : Files} {endpoints : List Endpoint}
    (listed : orchestrator.list files = .ok (endpoints, after)) :
    after.crash = orchestrator.crash ∧ after.list files = .ok (endpoints, after) := by
  obtain ⟨permitted, reloaded, same⟩ := list_eq_ok_iff.mp listed
  have kept : after.crash = orchestrator.crash ∧ after.failing = orchestrator.failing := by
    obtain ⟨_, _, rfl⟩ := list_keeps listed
    exact ⟨rfl, rfl⟩
  refine ⟨kept.1, list_eq_ok_iff.mpr ⟨?_, reload_reload reloaded, same⟩⟩
  rw [permit, kept.2]
  exact permitted

def Reported (before after : Orchestrator) : Prop := after.forgetful = before.forgetful

theorem reported_of_updateStatus {before after : Orchestrator} {id : EndpointId} {address : String}
    (updated : before.updateStatus id address = .ok after) : Reported before after := by
  obtain ⟨_, _, updated⟩ := Attempt.bind_eq_ok_iff.mp updated
  by_cases known : (!before.endpoints.contains id) = true
  · rw [if_pos known] at updated
    cases updated
  · rw [if_neg known] at updated
    by_cases same : before.reportedAddress? id = some address
    · rw [if_pos same] at updated
      cases updated
    · rw [if_neg same] at updated
      cases updated
      rfl

end Orchestrator

namespace StatusWork

theorem write_reported (dryRun : Bool) (address : String) (work : StatusWork) (endpoint : Endpoint) :
    Orchestrator.Reported work.orchestrator (write dryRun address work endpoint).orchestrator := by
  rw [write]
  split
  · rfl
  · split
    · rfl
    · split
      · rename_i updated
        exact Orchestrator.reported_of_updateStatus updated
      · rfl
      · rfl

theorem writeAll_reported {debugs dryRun : Bool} {minAge : Span} {now : Instant}
    {work after : StatusWork} {descriptor : Descriptor}
    (done : writeAll debugs dryRun minAge now work descriptor = .ok after) :
    Orchestrator.Reported work.orchestrator after.orchestrator := by
  rcases writeAll_cases done with rfl | ⟨_, address, _, _, _, rfl⟩ | rfl
  · rfl
  · refine List.foldlRecOn (motive := fun current : StatusWork =>
      Orchestrator.Reported work.orchestrator current.orchestrator) _ _ rfl ?_
    exact fun current reported endpoint _ => (write_reported ..).trans reported
  · rfl

theorem reportAll_reported (debugs dryRun : Bool) (minAge : Span) (now : Instant)
    (work : StatusWork) (descriptors : List Descriptor) :
    Orchestrator.Reported work.orchestrator
      (reached (reportAll debugs dryRun minAge now work descriptors)).orchestrator :=
  each_induction (motive := fun current : StatusWork =>
      Orchestrator.Reported work.orchestrator current.orchestrator)
    (fun _ _ _ _ reported done => (writeAll_reported done).trans reported) work rfl

end StatusWork

namespace Findings

theorem ofEndpoint_unreported (snapshot : List Certificate) (localDomain : String) (now : Instant)
    (endpoint : Endpoint) : ofEndpoint snapshot localDomain now endpoint.unreported
      = ofEndpoint snapshot localDomain now endpoint := rfl

end Findings

namespace Resolution

theorem ofEndpoints_unreported (snapshot : List Certificate) (localDomain : String) (now : Instant)
    (endpoints : List Endpoint) (resolution other : Resolution)
    (same : other.resolved = resolution.resolved.map ResolvedEndpoint.unreported) :
    (ofEndpoints snapshot localDomain now other (endpoints.map Endpoint.unreported)).map
        (fun resolution => resolution.resolved)
      = (ofEndpoints snapshot localDomain now resolution endpoints).map
        fun resolution => resolution.resolved.map ResolvedEndpoint.unreported := by
  induction endpoints generalizing resolution other with
  | nil => simp [ofEndpoints, Except.map, same]
  | cons endpoint rest ih =>
      rw [List.map_cons, ofEndpoints, ofEndpoints, Findings.ofEndpoint_unreported]
      cases Findings.ofEndpoint snapshot localDomain now endpoint with
      | error overflow => rfl
      | ok findings =>
          refine ih (resolution.add endpoint findings) (other.add endpoint.unreported findings) ?_
          simp only [add]
          split
          · exact same
          · rw [same, List.map_append]
            rfl

end Resolution

namespace Controller

variable {controller : Controller} {circumstances : Circumstances}

/-- What an orchestrator asks a pass to place, unless the pass does not come so far. -/
def demand? (controller : Controller) (circumstances : Circumstances) (orchestrator : Orchestrator) :
    Option Demand :=
  match orchestrator.crash, orchestrator.list circumstances.files with
  | none, .ok (endpoints, orchestrator) =>
      let resolution := Resolution.ofEndpoints circumstances.snapshot
        controller.settings.clusterLocalDomain circumstances.now {} endpoints
      (resolution.map fun resolution => resolution.resolved).toOption.map
        fun resolved => ⟨resolved, (controller.alarms orchestrator).1⟩
  | _, _ => none

theorem exists_listed {orchestrator : Orchestrator} {demand : Demand}
    (demanded : controller.demand? circumstances orchestrator = some demand) :
    ∃ endpoints after, orchestrator.list circumstances.files = .ok (endpoints, after) ∧
      (demand.resolved.map ResolvedEndpoint.endpoint).Sublist endpoints := by
  rw [demand?] at demanded
  split at demanded
  · rename_i endpoints after _ listed
    refine ⟨endpoints, after, listed, ?_⟩
    cases reached : Resolution.ofEndpoints circumstances.snapshot
        controller.settings.clusterLocalDomain circumstances.now {} endpoints with
    | error overflow =>
        rw [reached] at demanded
        cases demanded
    | ok resolution =>
        rw [reached] at demanded
        cases demanded
        exact (Resolution.ofEndpoints_covers reached).handed
  · cases demanded

theorem demand?_forgetful (controller : Controller) (circumstances : Circumstances)
    (orchestrator : Orchestrator) : controller.demand? circumstances orchestrator.forgetful
      = (controller.demand? circumstances orchestrator).map Demand.unreported := by
  have crash : orchestrator.forgetful.crash = orchestrator.crash := rfl
  rw [demand?, demand?, crash, Orchestrator.list_forgetful]
  cases orchestrator.crash with
  | some message => rfl
  | none =>
      cases orchestrator.list circumstances.files with
      | error failure => rfl
      | ok listed =>
          obtain ⟨endpoints, after⟩ := listed
          have alarms : controller.alarms after.forgetful = controller.alarms after := rfl
          have listed : (Except.ok (endpoints, after) : Except Failure _).map
              (fun (endpoints, after) =>
                (endpoints.map Endpoint.unreported, Orchestrator.forgetful after))
              = .ok (endpoints.map Endpoint.unreported, after.forgetful) := rfl
          rw [listed]
          simp only [alarms]
          rw [Resolution.ofEndpoints_unreported _ _ _ endpoints {} {} rfl]
          cases Resolution.ofEndpoints circumstances.snapshot controller.settings.clusterLocalDomain
            circumstances.now {} endpoints with
          | error overflow => rfl
          | ok resolution => rfl

theorem demand?_of_reported {before after : Orchestrator}
    (reported : Orchestrator.Reported before after) :
    (controller.demand? circumstances after).map Demand.unreported
      = (controller.demand? circumstances before).map Demand.unreported := by
  rw [← demand?_forgetful, ← demand?_forgetful, reported]

theorem demand?_of_listed {before after : Orchestrator} {endpoints : List Endpoint}
    (listed : before.list circumstances.files = .ok (endpoints, after)) :
    controller.demand? circumstances after = controller.demand? circumstances before := by
  obtain ⟨crash, again⟩ := Orchestrator.list_list listed
  rw [demand?, demand?, crash, again, listed]

theorem act_reported (world : World) (report : Report) (listed : List Stack)
    (placement : Placement) : Orchestrator.Reported world.orchestrator
      (controller.act circumstances world report listed placement).world.orchestrator := by
  have acts : Acts controller circumstances world listed placement
      (controller.act circumstances world report listed placement) := act_acts world
  rcases orchestrator_of_acts acts with same | ⟨_, _, _, written⟩
  · rw [same]
    rfl
  · rw [written]
    exact StatusWork.reportAll_reported ..

/-- A pass without a demand leaves the stacks alone; with one it acts on the placement of it. -/
theorem pass_of_demand? (controller : Controller) (circumstances : Circumstances) (world : World) :
    ((controller.demand? circumstances world.orchestrator = none ∧
        (controller.pass circumstances world).placement = {} ∧
        (controller.pass circumstances world).requests = [] ∧
        (controller.pass circumstances world).world.cloud = world.cloud)) ∨
    ∃ demand report orchestrator,
      controller.demand? circumstances world.orchestrator = some demand ∧
      ∀ listed, world.cloud.listStacks controller.settings.clusterId = .ok listed →
        (controller.pass circumstances world).placement = Placement.ofStacks
          controller.placementPolicy listed demand.resolved demand.alarms circumstances.now ∧
        (controller.pass circumstances world).requests = (controller.act circumstances
          { world with orchestrator } report listed
          (controller.pass circumstances world).placement).requests ∧
        (controller.pass circumstances world).world = (controller.act circumstances
          { world with orchestrator } report listed
          (controller.pass circumstances world).placement).world := by
  rw [pass, demand?]
  cases world.orchestrator.crash with
  | some message => exact .inl ⟨rfl, rfl, rfl, rfl⟩
  | none =>
      simp only
      cases listing : world.orchestrator.list circumstances.files with
      | error failure => exact .inl ⟨rfl, rfl, rfl, rfl⟩
      | ok listed =>
          obtain ⟨endpoints, orchestrator⟩ := listed
          simp only [process]
          cases Resolution.ofEndpoints circumstances.snapshot
              controller.settings.clusterLocalDomain circumstances.now {} endpoints with
          | error overflow => exact .inl ⟨rfl, rfl, rfl, rfl⟩
          | ok resolution =>
              let problems := resolution.problems ++ (controller.alarms orchestrator).2
              refine .inr ⟨_, { endpoints := endpoints.length, problems }, orchestrator, rfl,
                fun listed listing => ?_⟩
              simp only [listing, and_self, problems]

/-- The next pass is asked for the same. -/
theorem demand?_pass (controller : Controller) (circumstances other : Circumstances)
    (world : World) (files : other.files = circumstances.files) :
    (controller.demand? other (controller.pass circumstances world).world.orchestrator).map
        Demand.unreported
      = (controller.demand? other world.orchestrator).map Demand.unreported := by
  rw [pass]
  split
  · rfl
  · split
    · rfl
    · rename_i endpoints orchestrator listed
      rw [← files] at listed
      rw [← demand?_of_listed listed]
      rw [process]
      split
      · rfl
      · simp only
        split
        · rfl
        · exact demand?_of_reported (act_reported { world with orchestrator } ..)

end Controller

end IngressControl
