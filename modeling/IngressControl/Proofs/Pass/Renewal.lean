import IngressControl.Proofs.Pass.Upkeep
import IngressControl.Proofs.Placement.Order
/-!
What the next pass starts from.

The next pass finds the load balancers of a pass again on the stacks that it leaves, in their order:
with the same attributes and with the certificates that took a place. What has endpoints is recorded
on its stack. What has none is gone or kept, or as it was if the pass has faltered before.
-/

namespace IngressControl

namespace Placement

variable {policy : PlacementPolicy} {alarms : Option AlarmSet} {now later : Instant} {grace : Span}

theorem contains_occupied_ofObserved {observed : ObservedStack} {id : CertificateId} :
    ((Descriptor.ofObserved observed alarms).occupied now).contains id = true ↔
      (Schedule.live observed.certificates now).contains id = true := by
  have unused : (Descriptor.ofObserved observed alarms).certificates.contains id = false := rfl
  rw [Descriptor.contains_occupied, unused, Descriptor.contains_live, Descriptor.Keeps]
  simp [Descriptor.ofObserved]

theorem alike_of_records {descriptor : Descriptor} {observed : ObservedStack}
    (horizon : Horizon now later grace) (storable : descriptor.Storable)
    (records : descriptor.Records now later observed)
    (placeable : descriptor.existing.all ObservedStack.isPlaceable = observed.isPlaceable) :
    Alike now descriptor (.ofObserved observed alarms) where
  key := records.key.symm
  shared := records.shared.symm
  owner := records.owner.symm
  placeable := placeable
  occupied := by
    apply KeySet.eq_of_contains
    intro id
    rw [contains_occupied_ofObserved, Descriptor.records_live horizon storable records]

theorem alike_of_lingers {descriptor : Descriptor} {orphan lingering : ObservedStack}
    (unfilled : descriptor.hasEndpoints = false) (rooted : descriptor.Rooted orphan)
    (lingers : StackWork.Lingers orphan lingering) :
    Alike now descriptor (.ofObserved lingering alarms) where
  key := rooted.key.trans lingers.key.symm
  shared := rooted.shared.trans lingers.shared.symm
  owner := rooted.owner.trans lingers.owner.symm
  placeable := by
    rw [rooted.existing]
    simp [Descriptor.ofObserved, ObservedStack.isPlaceable, lingers.status]
  occupied := by
    apply KeySet.eq_of_contains
    intro id
    have unused : ¬ descriptor.certificates.contains id = true := by
      intro used
      rw [Descriptor.hasEndpoints_iff.mpr ⟨id, used⟩] at unfilled
      cases unfilled
    rw [contains_occupied_ofObserved, Descriptor.contains_occupied, Descriptor.contains_live,
      Descriptor.Keeps, lingers.certificates, rooted.existing]
    simp [unused]

/-- The load balancer of the first is started from the second in the next pass, which finds nothing
to mend as long as its endpoints stay: it is recorded on its stack or, unless the pass was `halted`
before, kept without endpoints. -/
structure Renewed (halted : Prop) (now later : Instant) (grace : Span)
    (descriptor seed : Descriptor) : Prop where
  alike : Alike now descriptor seed
  complete : descriptor.hasEndpoints = true → seed.Complete
  recorded : descriptor.hasEndpoints = true →
    ∀ observed, seed.existing = some observed → descriptor.Records now later observed
  kept : descriptor.hasEndpoints = false → ¬ halted →
    ∀ observed, seed.existing = some observed → observed.planOrphan now grace = .ok .keep

variable {halted : Prop}

theorem renewed_of_records {descriptor : Descriptor} {observed : ObservedStack}
    (filled : descriptor.hasEndpoints = true)
    (alike : Alike now descriptor (.ofObserved observed alarms))
    (records : descriptor.Records now later observed)
    (complete : observed.stack.status.isComplete = true) :
    Renewed halted now later grace descriptor (.ofObserved observed alarms) where
  alike := alike
  complete := by
    rintro _ _ ⟨⟩
    exact complete
  recorded := by
    rintro _ _ ⟨⟩
    exact records
  kept := by
    rw [filled]
    nofun

theorem renewed_of_lingers {descriptor : Descriptor} {orphan lingering : ObservedStack}
    (unfilled : descriptor.hasEndpoints = false) (rooted : descriptor.Rooted orphan)
    (lingers : StackWork.Lingers orphan lingering)
    (kept : ¬ halted → lingering.planOrphan now grace = .ok .keep) :
    Renewed halted now later grace descriptor (.ofObserved lingering alarms) where
  alike := alike_of_lingers unfilled rooted lingers
  complete := by
    rw [unfilled]
    nofun
  recorded := by
    rw [unfilled]
    nofun
  kept := by
    rintro _ finished _ ⟨⟩
    exact kept finished

end Placement

namespace Controller

variable {controller : Controller} {circumstances : Circumstances} {world : World} {later : Instant}
  {demand : Demand}

def seeds (controller : Controller) (world : World) (alarms : Option AlarmSet) : Placement :=
  Placement.seeded (world.cloud.ofCluster controller.settings.clusterId) alarms

def names (controller : Controller) (world : World) : List StackName :=
  (Placement.byName (Placement.readable
    (world.cloud.ofCluster controller.settings.clusterId))).map ObservedStack.name

theorem mem_readable_ofCluster {observed : ObservedStack} :
    observed ∈ Placement.readable (world.cloud.ofCluster controller.settings.clusterId) ↔
      ∃ name, world.cloud.Presents controller.settings.clusterId name observed := by
  rw [Placement.mem_readable]
  constructor
  · rintro ⟨stack, listed, read⟩
    have reflects := ObservedStack.ofStack_eq_ok_iff.mp read
    obtain rfl := reflects.stack_eq
    obtain ⟨⟨name, found⟩, member⟩ := Cloud.mem_ofCluster.mp listed
    exact ⟨name, found, member, reflects⟩
  · rintro ⟨name, found, member, reflects⟩
    exact ⟨observed.stack, Cloud.mem_ofCluster.mpr ⟨⟨name, found⟩, member⟩,
      ObservedStack.ofStack_eq_ok_iff.mpr reflects⟩

theorem mem_seeds {alarms : Option AlarmSet} {seed : Descriptor} :
    seed ∈ (controller.seeds world alarms).descriptors ↔
      ∃ name observed, world.cloud.Presents controller.settings.clusterId name observed ∧
        Descriptor.ofObserved observed alarms = seed := by
  rw [seeds, Placement.mem_seeded]
  constructor
  · rintro ⟨observed, member, rfl⟩
    obtain ⟨name, presents⟩ := mem_readable_ofCluster.mp member
    exact ⟨name, observed, presents, rfl⟩
  · rintro ⟨name, observed, presents, rfl⟩
    exact ⟨observed, mem_readable_ofCluster.mpr ⟨name, presents⟩, rfl⟩

theorem name_of_presents (named : world.cloud.Named) {name : StackName} {observed : ObservedStack}
    (presents : world.cloud.Presents controller.settings.clusterId name observed) :
    observed.name = name :=
  named name observed.stack presents.found

theorem stackName_of_presents (named : world.cloud.Named) {name : StackName}
    {observed : ObservedStack}
    (presents : world.cloud.Presents controller.settings.clusterId name observed)
    (alarms : Option AlarmSet) :
    (Descriptor.ofObserved observed alarms).stackName? = some name :=
  congrArg some (name_of_presents named presents)

theorem mem_names (named : world.cloud.Named) {name : StackName} :
    name ∈ controller.names world ↔
      ∃ observed, world.cloud.Presents controller.settings.clusterId name observed := by
  simp only [names, List.mem_map, Placement.mem_byName, mem_readable_ofCluster]
  constructor
  · rintro ⟨observed, ⟨other, presents⟩, rfl⟩
    exact ⟨observed, name_of_presents named presents ▸ presents⟩
  · rintro ⟨observed, presents⟩
    exact ⟨observed, ⟨name, presents⟩, name_of_presents named presents⟩

theorem names_increasing (calm : controller.Calm world) :
    (controller.names world).Pairwise fun lower upper => compare lower upper = .lt :=
  Placement.byName_increasing <| Cloud.listStacks_names_nodup calm.named <|
    Cloud.listStacks_of_able calm.able controller.settings.clusterId

theorem names_nodup (calm : controller.Calm world) : (controller.names world).Nodup := by
  refine List.Pairwise.imp ?_ (names_increasing calm)
  rintro name _ below rfl
  have equal : compare name name = .eq := Std.ReflCmp.compare_self
  cases equal.symm.trans below

theorem seeds_names (controller : Controller) (world : World) (alarms : Option AlarmSet) :
    (controller.seeds world alarms).descriptors.map Descriptor.stackName?
      = (controller.names world).map some := by
  rw [seeds, names, Placement.seeded, List.map_map, List.map_map]
  rfl

def Renews (controller : Controller) (circumstances : Circumstances) (later : Instant)
    (world : World) (demand : Demand) (descriptor seed : Descriptor) : Prop :=
  Placement.Renewed
    (controller.Falters circumstances (controller.placing circumstances.now world demand))
    circumstances.now later controller.grace descriptor seed

theorem renews_of_carried (ready : controller.Ready circumstances later world demand)
    {descriptor : Descriptor} {observed : ObservedStack}
    (wanted : descriptor ∈ (controller.placing circumstances.now world demand).desired)
    (records : descriptor.Records circumstances.now later observed)
    (complete : observed.stack.status.isComplete = true) (alarms : Option AlarmSet) :
    controller.Renews circumstances later world demand descriptor (.ofObserved observed alarms) := by
  obtain ⟨placed, filled⟩ := List.mem_filter.mp wanted
  have faithful := placing_faithful ready.calm ready.recordable descriptor placed
  have placeable : descriptor.existing.all ObservedStack.isPlaceable = observed.isPlaceable := by
    obtain ⟨unfailed, _, undeleted⟩ := StackStatus.isComplete_iff.mp complete
    rw [placing_placeable wanted]
    simp [ObservedStack.isPlaceable, unfailed, undeleted]
  exact Placement.renewed_of_records filled
    (Placement.alike_of_records ready.horizon faithful.storable records placeable) records complete

theorem exists_carrier (ready : controller.Ready circumstances later world demand)
    {names : List StackName} (leads : controller.Leads circumstances later world demand names)
    {descriptor : Descriptor} {name : StackName}
    (paired : (descriptor, name)
      ∈ (controller.placing circumstances.now world demand).desired.zip names) :
    ∃ observed, (controller.pass circumstances world).world.cloud.Presents
        controller.settings.clusterId name observed ∧
      ∀ alarms, controller.Renews circumstances later world demand descriptor
        (.ofObserved observed alarms) := by
  obtain ⟨observed, presents, complete, records⟩ :=
    (List.forall₂_zip leads.housed paired).carries
  exact ⟨observed, presents, fun alarms =>
    renews_of_carried ready (List.of_mem_zip paired).1 records complete alarms⟩

section Existing

variable (ready : controller.Ready circumstances later world demand) {descriptor : Descriptor}
  {old : ObservedStack}
  (placed : descriptor ∈ (controller.placing circumstances.now world demand).descriptors)
  (existing : descriptor.existing = some old)

include ready placed existing

theorem exists_stay (filled : descriptor.hasEndpoints = true) :
    ∃ observed, (controller.pass circumstances world).world.cloud.Presents
        controller.settings.clusterId old.name observed ∧
      ∀ alarms, controller.Renews circumstances later world demand descriptor
        (.ofObserved observed alarms) := by
  obtain ⟨names, leads⟩ := exists_names ready
  obtain ⟨name, paired⟩ :=
    Pairs.exists_zip leads.housed (List.mem_filter.mpr ⟨placed, filled⟩)
  obtain rfl := (List.forall₂_zip leads.housed paired).old old existing
  exact exists_carrier ready leads paired

theorem renews_of_presents {observed : ObservedStack}
    (presents : (controller.pass circumstances world).world.cloud.Presents
      controller.settings.clusterId old.name observed) (alarms : Option AlarmSet) :
    controller.Renews circumstances later world demand descriptor (.ofObserved observed alarms) := by
  cases filled : descriptor.hasEndpoints with
  | true =>
      obtain ⟨other, presents', renews⟩ := exists_stay ready placed existing filled
      obtain rfl := Cloud.presents_unique presents presents'
      exact renews alarms
  | false =>
      obtain ⟨names, leads⟩ := exists_names ready
      obtain ⟨lingers, kept⟩ := lingers_of_orphaned ready leads
        (Placement.mem_orphaned_of_vacant placed filled existing) presents
      exact Placement.renewed_of_lingers filled
        (Placement.ofStacks_rooted descriptor placed old existing) lingers kept

end Existing

def survives (controller : Controller) (circumstances : Circumstances) (world : World)
    (descriptor : Descriptor) : Bool :=
  descriptor.stackName?.any fun name =>
    name ∈ controller.names (controller.pass circumstances world).world

section Grown

variable {now : Instant} (grown : (controller.placing now world demand).descriptors.map
    Descriptor.existing = (controller.seeds world demand.alarms).descriptors.map Descriptor.existing)

include grown

theorem placing_names :
    (controller.placing now world demand).descriptors.map Descriptor.stackName?
      = (controller.names world).map some := by
  have called (descriptors : List Descriptor) : descriptors.map Descriptor.stackName?
      = (descriptors.map Descriptor.existing).map (Option.map ObservedStack.name) := by
    rw [List.map_map]
    rfl
  rw [← controller.seeds_names world demand.alarms, called, grown, ← called]

theorem existing_of_grown {descriptor : Descriptor}
    (placed : descriptor ∈ (controller.placing now world demand).descriptors) :
    ∃ old, descriptor.existing = some old := by
  have member : descriptor.stackName? ∈ (controller.names world).map some :=
    placing_names grown ▸ List.mem_map_of_mem placed
  obtain ⟨name, _, called⟩ := List.mem_map.mp member
  obtain ⟨old, existing, _⟩ := Option.map_eq_some_iff.mp called.symm
  exact ⟨old, existing⟩

theorem vacancies_of_grown :
    Descriptor.vacancies (controller.placing now world demand).descriptors = 0 := by
  refine List.countP_eq_zero.mpr fun descriptor placed => ?_
  obtain ⟨old, existing⟩ := existing_of_grown grown placed
  rw [existing]
  exact Bool.false_ne_true

end Grown

section Renewal

variable (ready : controller.Ready circumstances later world demand)
  (grown : (controller.placing circumstances.now world demand).descriptors.map Descriptor.existing
    = (controller.seeds world demand.alarms).descriptors.map Descriptor.existing)

include ready grown

theorem names_pass : controller.names (controller.pass circumstances world).world
    = (controller.names world).filter fun name =>
        name ∈ controller.names (controller.pass circumstances world).world := by
  have calm := pass_calm ready
  refine Table.increasing_keys_unique (names_increasing calm)
    ((names_increasing ready.calm).filter _) fun name => ?_
  rw [List.mem_filter, decide_eq_true_eq]
  refine ⟨fun member => ⟨?_, member⟩, And.right⟩
  obtain ⟨observed, presents⟩ := (mem_names calm.named).mp member
  rw [mem_names ready.calm.named]
  obtain ⟨names, leads⟩ := exists_names ready
  cases pass_origin ready leads presents with
  | @carrying descriptor paired _ _ =>
      have placed := (List.mem_filter.mp (List.of_mem_zip paired).1).1
      obtain ⟨old, existing⟩ := existing_of_grown grown placed
      have same := (List.forall₂_zip leads.housed paired).old old existing
      exact ⟨old, same ▸ placing_origin ready.calm placed existing⟩
  | @lingering orphan orphaned same _ _ =>
      obtain ⟨descriptor, placed, existing⟩ := exists_vacant orphaned
      exact ⟨orphan, same ▸ placing_origin ready.calm placed existing⟩

theorem survives_of_filled {descriptor : Descriptor}
    (placed : descriptor ∈ (controller.placing circumstances.now world demand).descriptors)
    (filled : descriptor.hasEndpoints = true) :
    controller.survives circumstances world descriptor = true := by
  obtain ⟨old, existing⟩ := existing_of_grown grown placed
  obtain ⟨observed, presents, _⟩ := exists_stay ready placed existing filled
  have member : old.name ∈ controller.names (controller.pass circumstances world).world :=
    (mem_names (pass_calm ready).named).mpr ⟨observed, presents⟩
  rw [survives, Descriptor.stackName?, existing]
  exact decide_eq_true member

/-- Without new load balancers the next pass starts from those of this one that survive. -/
theorem pass_renewed (alarms : Option AlarmSet) :
    List.Forall₂ (fun descriptor seed => seed.stackName? = descriptor.stackName? ∧
        controller.Renews circumstances later world demand descriptor seed)
      ((controller.placing circumstances.now world demand).descriptors.filter
        (controller.survives circumstances world))
      (controller.seeds (controller.pass circumstances world).world alarms).descriptors := by
  have same : ((controller.placing circumstances.now world demand).descriptors.filter
        (controller.survives circumstances world)).map Descriptor.stackName?
      = (controller.seeds (controller.pass circumstances world).world alarms).descriptors.map
        Descriptor.stackName? := by
    let kept (name : Option StackName) : Bool :=
      name.any fun name => name ∈ controller.names (controller.pass circumstances world).world
    have some_kept (names : List StackName) : (names.map some).filter kept = (names.filter fun name =>
        name ∈ controller.names (controller.pass circumstances world).world).map some :=
      List.filter_map
    have placed : ((controller.placing circumstances.now world demand).descriptors.map
          Descriptor.stackName?).filter kept
        = ((controller.placing circumstances.now world demand).descriptors.filter
          (controller.survives circumstances world)).map Descriptor.stackName? := List.filter_map
    rw [← placed, placing_names grown, some_kept, ← names_pass ready grown, seeds_names]
  refine Pairs.imp_mem (fun descriptor member seed member' called => ?_) (Pairs.map_eq_iff.mp same)
  refine ⟨called.symm, ?_⟩
  have placed := (List.mem_filter.mp member).1
  obtain ⟨name, observed, presents, rfl⟩ := mem_seeds.mp member'
  obtain ⟨old, existing⟩ := existing_of_grown grown placed
  have names : old.name = observed.name := by
    rw [Descriptor.stackName?, existing] at called
    exact Option.some.inj called
  rw [← name_of_presents (pass_calm ready).named presents, ← names] at presents
  exact renews_of_presents ready placed existing presents alarms

end Renewal

theorem pass_hosted (ready : controller.Ready circumstances later world demand)
    {others : List ResolvedEndpoint} (alarms : Option AlarmSet)
    (same : others.map ResolvedEndpoint.unreported
      = demand.resolved.map ResolvedEndpoint.unreported) :
    Placement.Hosted controller.placementPolicy circumstances.now others
      (controller.seeds (controller.pass circumstances world).world alarms).descriptors := by
  intro other member fits
  obtain ⟨resolved, member, alike⟩ := Placement.exists_counterpart same member
  rw [Placement.certificates_congr alike] at fits
  obtain ⟨host, wanted, settles⟩ := Placement.settled_placeAll
    (controller.seeds world demand.alarms) (Placement.byIdentity demand.resolved) resolved
    (Placement.mem_byIdentity.mpr member) fits
  obtain ⟨names, leads⟩ := exists_names ready
  obtain ⟨name, paired⟩ := Pairs.exists_zip leads.housed wanted
  obtain ⟨observed, presents, renews⟩ := exists_carrier ready leads paired
  exact ⟨_, mem_seeds.mpr ⟨name, observed, presents, rfl⟩,
    Placement.hosts_congr (renews alarms).alike alike.symm settles.toHosts⟩

end Controller

end IngressControl
