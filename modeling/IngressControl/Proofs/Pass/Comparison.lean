import IngressControl.Proofs.Pass.Stages
/-!
Two passes that find out the same.

What a pass finds out before it acts depends on the orchestrator, the snapshot, the settings and the
stacks that the cloud lists. Where two passes agree in these, both end before they act, in the same
way, or both act on the same placement.
-/

namespace IngressControl.Controller

variable {first second : Controller} {circumstances : Circumstances} {world world' : World}

structure SameView (first second : Controller) (world world' : World) : Prop where
  orchestrator : world.orchestrator = world'.orchestrator
  localDomain : first.settings.clusterLocalDomain = second.settings.clusterLocalDomain
  policy : first.placementPolicy = second.placementPolicy
  alarms : first.settings.alarmReference? = second.settings.alarmReference?
  listing : world.cloud.listStacks first.settings.clusterId
    = world'.cloud.listStacks second.settings.clusterId

/-- How two passes that see the same go: both end before they act, or both act on the same load
balancers. -/
inductive Abreast (first second : Controller) (circumstances : Circumstances)
    (world world' : World) : PassResult → PassResult → Prop
  | ended {result result' : PassResult} (orchestrator : Orchestrator) :
      orchestrator.statuses = world.orchestrator.statuses →
      result.world = { world with orchestrator } → result'.world = { world' with orchestrator } →
      result.outcome = result'.outcome →
      (∀ report, result.outcome = .ok report → report.statusChanges = {}) →
        Abreast first second circumstances world world' result result'
  | acted {endpoints : List Endpoint} {orchestrator : Orchestrator} {resolution : Resolution}
      {listed : List Stack} (report : Report) (placement : Placement)
      (misses : List (EndpointId × Miss)) :
      Prepared first circumstances world endpoints orchestrator resolution listed →
      placement = Placement.ofStacks first.placementPolicy listed resolution.resolved
        (first.alarms orchestrator).1 circumstances.now →
        Abreast first second circumstances world world'
          { first.act circumstances { world with orchestrator } report listed placement with
            placement, misses }
          { second.act circumstances { world' with orchestrator } report listed placement with
            placement, misses }

theorem pass_abreast (view : SameView first second world world') (circumstances : Circumstances) :
    Abreast first second circumstances world world' (first.pass circumstances world)
      (second.pass circumstances world') := by
  have alarms (orchestrator : Orchestrator) :
      first.alarms orchestrator = second.alarms orchestrator := by
    rw [Controller.alarms, Controller.alarms, view.alarms]
  rw [pass, pass, ← view.orchestrator]
  split
  · exact .ended world.orchestrator rfl rfl (by rw [view.orchestrator]) rfl (by rintro _ ⟨⟩)
  · split
    · exact .ended world.orchestrator rfl rfl (by rw [view.orchestrator]) rfl
        (by rintro _ ⟨⟩; rfl)
    · rename_i endpoints orchestrator endpoints_listed
      have statuses := Orchestrator.list_statuses endpoints_listed
      rw [process, process, ← view.localDomain]
      split
      · exact .ended orchestrator statuses rfl rfl rfl (by rintro _ ⟨⟩)
      · rename_i resolution resolved
        simp only [← view.listing, ← view.policy, ← alarms]
        split
        · exact .ended orchestrator statuses rfl rfl rfl (by rintro _ ⟨⟩; rfl)
        · rename_i listed stacks_listed
          exact .acted _ _ _ ⟨endpoints_listed, resolved, stacks_listed⟩ rfl

end IngressControl.Controller
