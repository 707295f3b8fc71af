import IngressControl.Proofs.Convergence
import IngressControl.Proofs.Pass.Homecoming
/-!
Endpoints stay on the stacks that serve them.

They do when no load balancer of a pass accepts an endpoint of another one while it holds one of its
certificates. Otherwise the next pass, which starts from the stacks in the order of their names with
all their certificates, may move the endpoint there.
-/

namespace IngressControl

namespace Controller

variable {controller : Controller} {circumstances : Circumstances} {world : World} {later : Instant}
  {demand : Demand}

/-- Each load balancer of the first pass stands on a stack of its own, where the second one has all
its endpoints again. The second one makes no request. -/
structure Stays (policy : StackPolicy) (now later : Instant) (before : Cloud)
    (first second : PassResult) : Prop where
  home : ∃ names : List StackName, names.Nodup ∧
    List.Forall₂ (fun descriptor name =>
      StackWork.Houses policy now later before first.world.cloud descriptor name ∧
        ∀ endpoint ∈ descriptor.endpoints, second.placement.ServesAt name endpoint)
      first.placement.desired names
  idle : second.requests = []

theorem stays_of_ready (ready : controller.Ready circumstances later world demand)
    (distinct : (demand.resolved.map fun resolved => resolved.endpoint.id).Nodup)
    (undisputed : Placement.Undisputed controller.placementPolicy circumstances.now
      (controller.placing circumstances.now world demand)) (createdAt : Instant) :
    Stays (controller.stackPolicy circumstances.createdAt) circumstances.now later world.cloud
      (controller.pass circumstances world)
      (controller.pass (circumstances.dated createdAt)
        (controller.pass circumstances world).world) := by
  obtain ⟨names, leads⟩ := exists_names ready
  obtain ⟨next, same, steady⟩ := exists_steady ready
  have resolved : next.resolved.map ResolvedEndpoint.unreported
      = demand.resolved.map ResolvedEndpoint.unreported := congrArg Demand.resolved same
  have restores := restores_of_undisputed ready leads distinct undisputed resolved
  refine ⟨⟨names, leads.apart, ?_⟩, requests_of_restores restores ready steady same createdAt⟩
  have second : (controller.pass (circumstances.dated createdAt)
        (controller.pass circumstances world).world).placement
      = controller.placing circumstances.now (controller.pass circumstances world).world next :=
    pass_placement (ready_dated steady.toReady createdAt)
  rw [pass_placement ready, second]
  refine List.forall₂_iff_zip.mpr ⟨leads.housed.length_eq, fun {descriptor name} paired => ?_⟩
  exact ⟨List.forall₂_zip leads.housed paired, fun endpoint listed =>
    serves_again ready leads distinct undisputed resolved paired listed⟩

/-- Where no load balancer of a pass attracts an endpoint of another one, all endpoints stay, and
the next pass makes no request. -/
theorem endpoints_stay (controller : Controller) (circumstances : Circumstances)
    (createdAt : Instant) (world : World) (later : Instant) (endpoints : List Endpoint)
    (orchestrator : Orchestrator) (live : controller.settings.dryRun = false)
    (horizon : Horizon circumstances.now later controller.grace) (calm : controller.Calm world)
    (listed : world.orchestrator.list circumstances.files = .ok (endpoints, orchestrator))
    (distinct : (endpoints.map Endpoint.id).Nodup)
    (recordable : ∀ endpoint ∈ endpoints, endpoint.Recordable)
    (spares : world.cloud.Spares controller.freshName world.created
      (world.created + endpoints.length))
    (undisputed : Placement.Undisputed controller.placementPolicy circumstances.now
      (controller.pass circumstances world).placement) :
    Stays (controller.stackPolicy circumstances.createdAt) circumstances.now later world.cloud
      (controller.pass circumstances world)
      (controller.pass (circumstances.dated createdAt)
        (controller.pass circumstances world).world) := by
  cases demanded : controller.demand? circumstances world.orchestrator with
  | none =>
      have bare : (controller.pass circumstances world).placement = {} := by
        rcases controller.pass_of_demand? circumstances world with
          ⟨_, bare, _⟩ | ⟨demand, _, _, present, _⟩
        · exact bare
        · exact nomatch demanded.symm.trans present
      have absent := (pass_unasked demanded circumstances.createdAt).2.2
      refine ⟨⟨[], List.nodup_nil, ?_⟩, (pass_unasked absent createdAt).1⟩
      rw [bare]
      exact .nil
  | some demand =>
      obtain ⟨ready, some⟩ := ready_of_listed live horizon calm listed recordable spares demanded
      rw [pass_placement ready] at undisputed
      have ids := (some.map Endpoint.id).nodup distinct
      rw [List.map_map] at ids
      exact stays_of_ready ready ids undisputed createdAt

theorem calm_of_empty (empty : world.cloud = {}) : controller.Calm world := by
  have bare (name : StackName) (observed : ObservedStack) :
      ¬ world.cloud.Presents controller.settings.clusterId name observed := by
    intro presents
    have found := presents.found
    rw [empty] at found
    cases found
  refine ⟨?_, ?_, fun name observed presents => absurd presents (bare name observed),
    fun name observed presents => absurd presents (bare name observed)⟩
  · rw [empty]
    exact Cloud.empty_named
  · rw [empty]
    exact ⟨rfl, rfl⟩

def midday : Circumstances where
  snapshot := ["1", "2", "3"].map fun number =>
    ⟨"c" ++ number, ["h" ++ number ++ ".x"], ⟨946684800, 0⟩, ⟨32472144000, 0⟩⟩
  files := {}
  now := ⟨1772366400, 0⟩
  createdAt := ⟨1772366400, 0⟩

/-- Two endpoints that cannot share a load balancer, and one that joins the second of them for the
certificate that they have in common. -/
def parallel : World where
  orchestrator := ({} : Orchestrator).upsert
      { id := ⟨.ingress, "shop", "a"⟩, hostnames := ["h1.x"]
        sslPolicy := some "ELBSecurityPolicy-TLS-1-2-2017-01" }
    |>.upsert { id := ⟨.ingress, "shop", "b"⟩, hostnames := ["h3.x"]
                sslPolicy := some "ELBSecurityPolicy-FS-2018-06" }
    |>.upsert { id := ⟨.ingress, "shop", "c"⟩, hostnames := ["h2.x", "h3.x"] }

theorem midday_horizon : Horizon midday.now ⟨1772370000, 0⟩ steady.grace :=
  ⟨by decide, by decide, by decide +kernel, by decide +kernel, by decide +kernel⟩

theorem parallel_stays :
    Controller.ofSettings? steady.settings = some steady ∧ steady.settings.dryRun = false ∧
      Horizon midday.now ⟨1772370000, 0⟩ steady.grace ∧ parallel.cloud = {} ∧
      Placement.Undisputed steady.placementPolicy midday.now
        (steady.pass midday parallel).placement ∧
      Stays (steady.stackPolicy midday.createdAt) midday.now ⟨1772370000, 0⟩ parallel.cloud
        (steady.pass midday parallel)
        (steady.pass (midday.dated ⟨1772366401, 0⟩) (steady.pass midday parallel).world) := by
  have undisputed : Placement.Undisputed steady.placementPolicy midday.now
      (steady.pass midday parallel).placement := by
    simp only [pass, process, Placement.ofStacks_eq_insertion]
    decide +kernel
  refine ⟨rfl, rfl, midday_horizon, rfl, undisputed, ?_⟩
  refine endpoints_stay steady midday _ parallel _ parallel.orchestrator.current
    parallel.orchestrator rfl midday_horizon (calm_of_empty rfl) rfl (by decide +kernel) ?_ ?_
    undisputed
  · intro endpoint member
    have plain : ∀ endpoint ∈ parallel.orchestrator.current,
        endpoint.webAcl = none ∧ endpoint.shared = true := by decide +kernel
    obtain ⟨unguarded, shared⟩ := plain endpoint member
    exact ⟨by simp [unguarded], by simp [shared]⟩
  · have three : parallel.created + parallel.orchestrator.current.length = 3 := by decide +kernel
    have apart : ∀ first < 3, ∀ second < 3,
        steady.freshName first = steady.freshName second → first = second := by decide +kernel
    rw [three]
    exact ⟨fun first second _ below _ below' => apart first below second below', fun _ _ _ => rfl⟩

/-- A further endpoint brings a certificate of the third one to the first load balancer. -/
def crossed : World where
  orchestrator := parallel.orchestrator.upsert
    { id := ⟨.ingress, "shop", "d"⟩, hostnames := ["h2.x"]
      sslPolicy := some "ELBSecurityPolicy-TLS-1-2-2017-01" }

/-- The second pass moves the third endpoint there, and updates both stacks. -/
theorem crossed_moves :
    Controller.ofSettings? steady.settings = some steady ∧ steady.settings.dryRun = false ∧
      Horizon midday.now ⟨1772370000, 0⟩ steady.grace ∧ crossed.cloud = {} ∧
      crossed.orchestrator.list midday.files
        = .ok (crossed.orchestrator.current, crossed.orchestrator) ∧
      (crossed.orchestrator.current.map Endpoint.id).Nodup ∧
      (∀ endpoint ∈ crossed.orchestrator.current,
        endpoint.webAcl = none ∧ endpoint.shared = true) ∧
      (∀ first < 4, ∀ second < 4,
        steady.freshName first = steady.freshName second → first = second) ∧
      ((steady.pass midday crossed).outcome.toOption.map Report.problems) = some [] ∧
      ((steady.pass midday crossed).placement.desired.map Descriptor.endpointsText)
        = ["ingress/shop/a,ingress/shop/d", "ingress/shop/b,ingress/shop/c"] ∧
      ((steady.pass midday (steady.pass midday crossed).world).placement.desired.map
          fun descriptor => (descriptor.stackName?, descriptor.endpointsText))
        = [(some "shop-00000001", "ingress/shop/a,ingress/shop/c,ingress/shop/d"),
          (some "shop-00000002", "ingress/shop/b")] ∧
      ¬ Stays (steady.stackPolicy midday.createdAt) midday.now ⟨1772370000, 0⟩ crossed.cloud
        (steady.pass midday crossed)
        (steady.pass midday (steady.pass midday crossed).world) := by
  have moved : ((steady.pass midday crossed).outcome.toOption.map Report.problems) = some [] ∧
      ((steady.pass midday crossed).placement.desired.map Descriptor.endpointsText)
        = ["ingress/shop/a,ingress/shop/d", "ingress/shop/b,ingress/shop/c"] ∧
      ((steady.pass midday (steady.pass midday crossed).world).placement.desired.map
          fun descriptor => (descriptor.stackName?, descriptor.endpointsText))
        = [(some "shop-00000001", "ingress/shop/a,ingress/shop/c,ingress/shop/d"),
          (some "shop-00000002", "ingress/shop/b")] ∧
      (steady.pass midday (steady.pass midday crossed).world).requests.length = 2 := by
    simp only [pass, process, Placement.ofStacks_eq_insertion]
    decide +kernel
  obtain ⟨clean, before, after, asked⟩ := moved
  refine ⟨rfl, rfl, midday_horizon, rfl, rfl, by decide +kernel, by decide +kernel,
    by decide +kernel, clean, before, after, fun stays => ?_⟩
  rw [stays.idle] at asked
  cases asked

end Controller

end IngressControl
