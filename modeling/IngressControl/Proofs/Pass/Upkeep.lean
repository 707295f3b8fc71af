import IngressControl.Proofs.Pass.Demand
import IngressControl.Proofs.Pass.Outcome
import IngressControl.Proofs.Placement.Growth
/-!
What a pass keeps up from one pass to the next.

On a calm cloud, where no stack of the cluster is in progress and all its times come back from tags,
a pass comes to its full effect and leaves the cloud calm. Orphans are kept from then on, unless the
pass falters before it comes to them and leaves them as they were.
-/

namespace IngressControl

/-- A stack provisioned for this endpoint can record it. -/
structure Endpoint.Recordable (endpoint : Endpoint) : Prop where
  webAcl : endpoint.webAcl ≠ some ""
  writable : endpoint.shared = false → endpoint.id.Writable

namespace Placement

variable {policy : PlacementPolicy} {alarms : Option AlarmSet} {now : Instant}

theorem ofStacks_rooted {listed : List Stack} {endpoints : List ResolvedEndpoint} :
    ∀ descriptor ∈ (ofStacks policy listed endpoints alarms now).descriptors,
      ∀ observed, descriptor.existing = some observed → descriptor.Rooted observed := by
  apply descriptor_induction
  · intro descriptor seed observed existing
    obtain ⟨_, _, rfl⟩ := mem_seeded.mp seed
    obtain rfl := Option.some.inj existing
    exact ⟨rfl, rfl, rfl, rfl⟩
  · intro descriptor resolved _ rooted _ _ observed existing
    have root := rooted observed existing
    exact ⟨existing, root.key, root.shared, root.owner⟩
  · intro resolved _ _ observed existing
    rw [Descriptor.add_existing, fresh_existing] at existing
    cases existing

theorem fresh_recordable {endpoint : Endpoint} (recordable : endpoint.Recordable) :
    (fresh policy endpoint alarms).Recordable := by
  rw [fresh]
  cases shared : endpoint.shared with
  | true =>
      refine ⟨recordable.webAcl, ?_, ?_⟩
      · rintro id ⟨⟩
      · rintro ⟨⟩
  | false =>
      refine ⟨recordable.webAcl, ?_, fun _ => rfl⟩
      rintro id ⟨⟩
      exact recordable.writable shared

theorem ofStacks_recordable {listed : List Stack} {endpoints : List ResolvedEndpoint}
    (recordable : ∀ resolved ∈ endpoints, resolved.endpoint.Recordable) :
    ∀ descriptor ∈ (ofStacks policy listed endpoints alarms now).descriptors,
      descriptor.Recordable := by
  apply descriptor_induction
  · intro descriptor seed
    obtain ⟨observed, member, rfl⟩ := mem_seeded.mp seed
    obtain ⟨stack, _, read⟩ := mem_readable.mp member
    exact ObservedStack.recordable_of_reflects (ObservedStack.ofStack_eq_ok_iff.mp read) alarms
  · intro descriptor resolved _ known _ _
    exact ⟨known.webAcl, known.owner, known.owned⟩
  · intro resolved member _
    have member := (List.mergeSort_perm ..).mem_iff.mp member
    have known : (fresh policy resolved.endpoint alarms).Recordable :=
      fresh_recordable (recordable resolved member)
    exact ⟨known.webAcl, known.owner, known.owned⟩

theorem vacancies_ofStacks_le (listed : List Stack) (endpoints : List ResolvedEndpoint) :
    Descriptor.vacancies (ofStacks policy listed endpoints alarms now).descriptors
      ≤ endpoints.length := by
  have counted : Descriptor.vacancies (ofStacks policy listed endpoints alarms now).descriptors
      ≤ (byIdentity endpoints).length := by
    apply placement_induction fun earlier placement =>
      Descriptor.vacancies placement.descriptors ≤ earlier.length
    · simp [seeded, Descriptor.vacancies, Descriptor.ofObserved, List.countP_map, Function.comp_def]
    · intro earlier resolved placement _ few
      rw [List.length_append, List.length_singleton]
      rcases next_cases placement resolved with
        ⟨_, same⟩ | ⟨_, before, target, behind, whole, _, same⟩ | ⟨_, _, same⟩
      · rw [same]
        exact Nat.le_succ_of_le few
      · rw [whole, Descriptor.vacancies] at few
        rw [same, Descriptor.vacancies]
        simp only [List.countP_append, List.countP_cons, Descriptor.add_existing] at few ⊢
        exact Nat.le_succ_of_le few
      · rw [same, Descriptor.vacancies, List.countP_append]
        exact Nat.add_le_add few List.countP_le_length
  rwa [byIdentity, List.length_mergeSort] at counted

end Placement

namespace Cloud

theorem spares_of_le {cloud : Cloud} {freshName : Nat → StackName} {created limit higher : Nat}
    (within : limit ≤ higher) (spares : cloud.Spares freshName created higher) :
    cloud.Spares freshName created limit where
  injective first second low below low' below' :=
    spares.injective first second low (Nat.lt_of_lt_of_le below within) low'
      (Nat.lt_of_lt_of_le below' within)
  unused number low below := spares.unused number low (Nat.lt_of_lt_of_le below within)

def ofCluster (cloud : Cloud) (cluster : String) : List Stack :=
  cloud.provisioned.values.filter fun stack =>
    stack.tags.contains Tag.application && Tags.clusterId? stack.tags = some cluster

theorem listStacks_of_able {cloud : Cloud} (able : cloud.Able) (cluster : String) :
    cloud.listStacks cluster = .ok (cloud.ofCluster cluster) := by
  rw [listStacks, permit_of_able able]
  rfl

theorem mem_ofCluster {cloud : Cloud} {cluster : String} {stack : Stack} :
    stack ∈ cloud.ofCluster cluster ↔
      (∃ name, cloud.provisioned.get? name = some stack) ∧ stack.IsOf cluster := by
  simp [ofCluster, List.mem_filter, Table.mem_values_iff, Stack.IsOf]

end Cloud

namespace Controller

variable {controller : Controller} {circumstances : Circumstances} {world : World} {later : Instant}

/-- Requests are granted and settle at once, no stack of the cluster is in progress, and the removal
times of its certificates come back from tags. -/
structure Calm (controller : Controller) (world : World) : Prop where
  named : world.cloud.Named
  able : world.cloud.Able
  idle : ∀ name observed, world.cloud.Presents controller.settings.clusterId name observed →
    observed.stack.status.isInProgress = false
  storable : ∀ name observed, world.cloud.Presents controller.settings.clusterId name observed →
    observed.certificates.Storable

def placing (controller : Controller) (now : Instant) (world : World) (demand : Demand) : Placement :=
  Placement.ofStacks controller.placementPolicy
    (world.cloud.ofCluster controller.settings.clusterId) demand.resolved demand.alarms now

section Placing

variable {now : Instant} {demand : Demand} {descriptor : Descriptor} {observed : ObservedStack}

theorem placing_origin (calm : controller.Calm world)
    (placed : descriptor ∈ (controller.placing now world demand).descriptors)
    (existing : descriptor.existing = some observed) :
    world.cloud.Presents controller.settings.clusterId observed.name observed := by
  obtain ⟨stack, listed, read⟩ := Placement.existing_readable placed existing
  have reflects := ObservedStack.ofStack_eq_ok_iff.mp read
  obtain rfl := reflects.stack_eq
  obtain ⟨⟨name, found⟩, member⟩ := Cloud.mem_ofCluster.mp listed
  have same : observed.name = name := calm.named name observed.stack found
  exact ⟨same ▸ found, member, reflects⟩

theorem exists_placing (now : Instant) (demand : Demand) {name : StackName}
    (presents : world.cloud.Presents controller.settings.clusterId name observed) :
    ∃ descriptor ∈ (controller.placing now world demand).descriptors,
      descriptor.existing = some observed := by
  have readable : observed ∈ Placement.readable
      (world.cloud.ofCluster controller.settings.clusterId) :=
    Placement.mem_readable.mpr ⟨observed.stack,
      Cloud.mem_ofCluster.mpr ⟨⟨name, presents.found⟩, presents.listed⟩,
      ObservedStack.ofStack_eq_ok_iff.mpr presents.reflects⟩
  have existing : (controller.placing now world demand).descriptors.filterMap Descriptor.existing
      = Placement.byName (Placement.readable
        (world.cloud.ofCluster controller.settings.clusterId)) := Placement.ofStacks_existing ..
  exact List.mem_filterMap.mp (existing ▸ Placement.mem_byName.mpr readable)

theorem placing_faithful (calm : controller.Calm world)
    (recordable : ∀ resolved ∈ demand.resolved, resolved.endpoint.Recordable) :
    ∀ descriptor ∈ (controller.placing now world demand).descriptors,
      descriptor.Faithful controller.settings.clusterId := by
  intro descriptor placed
  refine ⟨Placement.ofStacks_recordable recordable descriptor placed, fun observed existing => ?_,
    Placement.ofStacks_rooted descriptor placed, fun observed existing => ?_,
    fun observed existing => ?_⟩
  · exact calm.storable _ _ (placing_origin calm placed existing)
  · exact (placing_origin calm placed existing).reflects
  · exact (placing_origin calm placed existing).listed

theorem placing_placeable (wanted : descriptor ∈ (controller.placing now world demand).desired) :
    descriptor.existing.all ObservedStack.isPlaceable = true := by
  obtain ⟨placed, filled⟩ := List.mem_filter.mp wanted
  obtain ⟨id, used⟩ := Descriptor.hasEndpoints_iff.mp filled
  obtain ⟨endpoint, entered⟩ := Placement.ofStacks_peopled descriptor placed id used
  exact (Placement.ofStacks_suits descriptor placed endpoint ⟨id, entered⟩).placeable

theorem placing_complete (calm : controller.Calm world) :
    ∀ descriptor ∈ (controller.placing now world demand).desired, descriptor.Complete := by
  intro descriptor wanted observed existing
  have presents := placing_origin calm (List.mem_filter.mp wanted).1 existing
  have placeable := placing_placeable wanted
  have sane : observed.stack.status.isFailed = false ∧
      observed.stack.status.isDeleting = false := by
    simpa [existing, ObservedStack.isPlaceable] using placeable
  exact StackStatus.isComplete_iff.mpr ⟨sane.1, calm.idle _ _ presents, sane.2⟩

theorem placing_apart (calm : controller.Calm world) :
    (controller.placing now world demand).descriptors.Pairwise Placement.Unrelated :=
  Placement.ofStacks_unrelated _ <| Cloud.listStacks_names_nodup calm.named <|
    Cloud.listStacks_of_able calm.able controller.settings.clusterId

end Placing

variable {demand : Demand}

/-- A pass with a demand that it can meet in full: nothing is held back or refused, what is there
can be read back, and so can what is to come. -/
structure Ready (controller : Controller) (circumstances : Circumstances) (later : Instant)
    (world : World) (demand : Demand) : Prop where
  live : controller.settings.dryRun = false
  horizon : Horizon circumstances.now later controller.grace
  calm : controller.Calm world
  spares : world.cloud.Spares controller.freshName world.created
    (world.created + Descriptor.vacancies
      (controller.placing circumstances.now world demand).descriptors)
  demanded : controller.demand? circumstances world.orchestrator = some demand
  recordable : ∀ resolved ∈ demand.resolved, resolved.endpoint.Recordable

theorem ready_of_listed {endpoints : List Endpoint} {orchestrator : Orchestrator}
    (live : controller.settings.dryRun = false)
    (horizon : Horizon circumstances.now later controller.grace) (calm : controller.Calm world)
    (listed : world.orchestrator.list circumstances.files = .ok (endpoints, orchestrator))
    (recordable : ∀ endpoint ∈ endpoints, endpoint.Recordable)
    (spares : world.cloud.Spares controller.freshName world.created
      (world.created + endpoints.length))
    (demanded : controller.demand? circumstances world.orchestrator = some demand) :
    controller.Ready circumstances later world demand ∧
      (demand.resolved.map ResolvedEndpoint.endpoint).Sublist endpoints := by
  obtain ⟨_, _, listed', some⟩ := exists_listed demanded
  obtain ⟨rfl, rfl⟩ := Prod.mk.inj (Except.ok.inj (listed.symm.trans listed'))
  have few : Descriptor.vacancies (controller.placing circumstances.now world demand).descriptors
      ≤ endpoints.length := by
    refine (Placement.vacancies_ofStacks_le _ demand.resolved).trans ?_
    rw [← List.length_map ResolvedEndpoint.endpoint]
    exact some.length_le
  exact ⟨⟨live, horizon, calm, Cloud.spares_of_le (Nat.add_le_add_left few _) spares, demanded,
    fun resolved member => recordable _ (some.subset (List.mem_map_of_mem member))⟩, some⟩

/-- What becomes of the stacks in a pass with this demand, the wanted load balancers being carried
by those of these names. -/
def Leads (controller : Controller) (circumstances : Circumstances) (later : Instant)
    (world : World) (demand : Demand) (names : List StackName) : Prop :=
  Outcome (controller.Falters circumstances (controller.placing circumstances.now world demand))
    (controller.stackPolicy circumstances.createdAt) circumstances.now later
    (controller.placing circumstances.now world demand) world.cloud names
    (controller.pass circumstances world).world.cloud

theorem exists_names (ready : controller.Ready circumstances later world demand) :
    ∃ names, controller.Leads circumstances later world demand names := by
  rcases controller.pass_of_demand? circumstances world with
    ⟨absent, _⟩ | ⟨same, report, orchestrator, present, acts⟩
  · rw [ready.demanded] at absent
    cases absent
  · rw [ready.demanded] at present
    cases present
    obtain ⟨placed, _, result⟩ := acts _ (Cloud.listStacks_of_able ready.calm.able _)
    simp only [Leads, result, placed]
    exact act_outcome { world with orchestrator } ready.live ready.horizon ready.calm.able
      ready.spares (placing_faithful ready.calm ready.recordable) (placing_complete ready.calm)
      (placing_apart ready.calm) fun descriptor placed observed existing =>
        (placing_origin ready.calm placed existing).found

theorem pass_placement (ready : controller.Ready circumstances later world demand) :
    (controller.pass circumstances world).placement
      = controller.placing circumstances.now world demand := by
  rcases controller.pass_of_demand? circumstances world with
    ⟨absent, _⟩ | ⟨same, report, orchestrator, present, acts⟩
  · rw [ready.demanded] at absent
    cases absent
  · rw [ready.demanded] at present
    cases present
    exact (acts _ (Cloud.listStacks_of_able ready.calm.able _)).1

theorem pass_requested (controller : Controller) (circumstances : Circumstances) (world : World) :
    ∀ request ∈ (controller.pass circumstances world).requests,
      (controller.pass circumstances world).placement.Asks
        (controller.stackPolicy circumstances.createdAt) circumstances.now request := by
  rcases controller.pass_cases circumstances world with
    ⟨_, _, none, _⟩ | ⟨_, _, _, _, _, grounded⟩
  · rw [none]
    exact fun _ member => nomatch member
  · exact grounded.requested

theorem pass_demands
    (falters : controller.Falters circumstances (controller.pass circumstances world).placement) :
    ∀ request ∈ (controller.pass circumstances world).requests,
      (controller.pass circumstances world).placement.Demands
        (controller.stackPolicy circumstances.createdAt) circumstances.now request := by
  rcases controller.pass_stages circumstances world with
    ⟨_, _, none, _⟩ | ⟨_, _, _, _, _, _, acts⟩
  · rw [none]
    exact fun _ member => nomatch member
  · exact demands_of_falters acts falters

/-- How a stack of the cluster comes to stand under its name after a pass: it carries the load
balancer that has this name or was given it, or it lingers as an orphan, to be kept from then on
unless the pass was `halted` before. -/
inductive Origin (halted : Prop) (now later : Instant) (grace : Span) (placement : Placement)
    (names : List StackName) (name : StackName) (observed : ObservedStack) : Prop
  | carrying {descriptor : Descriptor} :
      (descriptor, name) ∈ placement.desired.zip names →
      observed.stack.status.isComplete = true →
      descriptor.Records now later observed →
        Origin halted now later grace placement names name observed
  | lingering {orphan : ObservedStack} :
      orphan ∈ placement.orphaned → orphan.name = name → StackWork.Lingers orphan observed →
      (¬ halted → observed.planOrphan now grace = .ok .keep) →
        Origin halted now later grace placement names name observed

theorem lingers_of_orphaned (ready : controller.Ready circumstances later world demand)
    {names : List StackName} (leads : controller.Leads circumstances later world demand names)
    {orphan observed : ObservedStack}
    (orphaned : orphan ∈ (controller.placing circumstances.now world demand).orphaned)
    (presents : (controller.pass circumstances world).world.cloud.Presents
      controller.settings.clusterId orphan.name observed) :
    StackWork.Lingers orphan observed ∧
      (¬ controller.Falters circumstances (controller.placing circumstances.now world demand) →
        observed.planOrphan circumstances.now controller.grace = .ok .keep) := by
  by_cases halted : controller.Falters circumstances
      (controller.placing circumstances.now world demand)
  · have same := leads.untouched halted orphan orphaned
    have before : world.cloud.Presents controller.settings.clusterId orphan.name observed :=
      ⟨same.symm.trans presents.found, presents.listed, presents.reflects⟩
    obtain ⟨descriptor, placed, existing⟩ := exists_vacant orphaned
    obtain rfl := Cloud.presents_unique before (placing_origin ready.calm placed existing)
    exact ⟨⟨rfl, rfl, rfl, rfl, rfl⟩, fun finished => absurd halted finished⟩
  · rcases leads.left halted orphan orphaned with ⟨_, gone⟩ | ⟨other, presents', lingers, kept⟩
    · exact nomatch gone.symm.trans presents.found
    · obtain rfl := Cloud.presents_unique presents presents'
      exact ⟨lingers, fun _ => kept⟩

theorem pass_origin (ready : controller.Ready circumstances later world demand)
    {names : List StackName} (leads : controller.Leads circumstances later world demand names)
    {name : StackName} {observed : ObservedStack}
    (presents : (controller.pass circumstances world).world.cloud.Presents
      controller.settings.clusterId name observed) :
    Origin (controller.Falters circumstances (controller.placing circumstances.now world demand))
      circumstances.now later controller.grace
      (controller.placing circumstances.now world demand) names name observed := by
  by_cases carrying : name ∈ names
  · obtain ⟨descriptor, paired⟩ := Pairs.exists_zip_left leads.housed carrying
    obtain ⟨other, presents', complete, records⟩ := (List.forall₂_zip leads.housed paired).carries
    obtain rfl := Cloud.presents_unique presents presents'
    exact .carrying paired complete records
  by_cases lingering : ∃ orphan ∈ (controller.placing circumstances.now world demand).orphaned,
      orphan.name = name
  · obtain ⟨orphan, orphaned, rfl⟩ := lingering
    obtain ⟨lingers, kept⟩ := lingers_of_orphaned ready leads orphaned presents
    exact .lingering orphaned rfl lingers kept
  -- Any other stack was there before, and what can be read has its place in the placement.
  · have same := leads.elsewhere name carrying fun orphan orphaned called =>
      lingering ⟨orphan, orphaned, called⟩
    have before : world.cloud.Presents controller.settings.clusterId name observed :=
      ⟨same.symm.trans presents.found, presents.listed, presents.reflects⟩
    have called : observed.name = name := ready.calm.named name observed.stack before.found
    obtain ⟨descriptor, placed, existing⟩ := exists_placing circumstances.now demand before
    cases filled : descriptor.hasEndpoints with
    | true =>
        obtain ⟨other, member, houses⟩ :=
          Pairs.exists_right leads.housed (List.mem_filter.mpr ⟨placed, filled⟩)
        have kept := houses.old observed existing
        exact absurd (kept.symm.trans called ▸ member) carrying
    | false =>
        exact absurd ⟨observed, Placement.mem_orphaned_of_vacant placed filled existing, called⟩
          lingering

theorem pass_calm (ready : controller.Ready circumstances later world demand) :
    controller.Calm (controller.pass circumstances world).world := by
  obtain ⟨names, leads⟩ := exists_names ready
  refine ⟨pass_named ready.calm.named, leads.able, fun name observed presents => ?_,
    fun name observed presents => ?_⟩
  · cases pass_origin ready leads presents with
    | carrying _ complete _ => exact (StackStatus.isComplete_iff.mp complete).2.1
    | lingering orphaned _ lingers _ =>
        obtain ⟨descriptor, placed, existing⟩ := exists_vacant orphaned
        rw [lingers.status]
        exact ready.calm.idle _ _ (placing_origin ready.calm placed existing)
  · cases pass_origin ready leads presents with
    | @carrying descriptor paired _ records =>
        have placed := (List.mem_filter.mp (List.of_mem_zip paired).1).1
        have faithful := placing_faithful ready.calm ready.recordable descriptor placed
        exact Descriptor.records_storable ready.horizon faithful.storable records
    | lingering orphaned _ lingers _ =>
        obtain ⟨descriptor, placed, existing⟩ := exists_vacant orphaned
        rw [lingers.certificates]
        exact ready.calm.storable _ _ (placing_origin ready.calm placed existing)

end Controller

end IngressControl
