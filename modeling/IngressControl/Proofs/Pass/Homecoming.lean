import IngressControl.Proofs.Pass.Settling
/-!
Where the endpoints of a pass are in the next one.

When no load balancer attracts an endpoint of another one, each endpoint prefers among the stacks
that the pass leaves the one of its load balancer. It returns there in the next pass, which has
nothing to mend then.
-/

namespace IngressControl

def Placement.ServesAt (placement : Placement) (name : StackName) (endpoint : Endpoint) : Prop :=
  ∃ descriptor ∈ placement.descriptors, descriptor.stackName? = some name ∧
    ∃ other ∈ descriptor.endpoints, other.unreported = endpoint.unreported

namespace Controller

variable {controller : Controller} {circumstances : Circumstances} {world : World} {later : Instant}
  {demand next : Demand} {names : List StackName} {alarms : Option AlarmSet}

/-- The next pass starts from the seed with the load balancer, which stands there under the name
that it was given if it has endpoints. -/
structure Succeeds (controller : Controller) (circumstances : Circumstances) (later : Instant)
    (world : World) (demand : Demand) (names : List StackName) (descriptor seed : Descriptor) :
    Prop where
  placed : descriptor ∈ (controller.placing circumstances.now world demand).descriptors
  renewed : controller.Renews circumstances later world demand descriptor seed
  named : descriptor.hasEndpoints = true → ∃ name, seed.stackName? = some name ∧
    (descriptor, name) ∈ (controller.placing circumstances.now world demand).desired.zip names

section Succession

variable (ready : controller.Ready circumstances later world demand)
  (leads : controller.Leads circumstances later world demand names)

include ready leads

theorem exists_source {seed : Descriptor} (member : seed ∈
      (controller.seeds (controller.pass circumstances world).world alarms).descriptors) :
    ∃ descriptor, controller.Succeeds circumstances later world demand names descriptor seed := by
  obtain ⟨name, observed, presents, rfl⟩ := mem_seeds.mp member
  cases pass_origin ready leads presents with
  | @carrying descriptor paired complete records =>
      have wanted := (List.of_mem_zip paired).1
      exact ⟨descriptor, (List.mem_filter.mp wanted).1,
        renews_of_carried ready wanted records complete alarms,
        fun _ => ⟨name, stackName_of_presents (pass_calm ready).named presents alarms, paired⟩⟩
  | @lingering orphan orphaned _ lingers kept =>
      obtain ⟨descriptor, placed, unfilled, existing⟩ := Placement.mem_orphaned orphaned
      have rooted := Placement.ofStacks_rooted descriptor placed orphan existing
      exact ⟨descriptor, placed, Placement.renewed_of_lingers unfilled rooted lingers kept,
        fun filled => nomatch unfilled.symm.trans filled⟩

theorem exists_successor {descriptor : Descriptor} {name : StackName}
    (paired : (descriptor, name)
      ∈ (controller.placing circumstances.now world demand).desired.zip names)
    (alarms : Option AlarmSet) :
    ∃ seed ∈ (controller.seeds (controller.pass circumstances world).world alarms).descriptors,
      seed.stackName? = some name ∧
        controller.Succeeds circumstances later world demand names descriptor seed := by
  obtain ⟨observed, presents, renewed⟩ := exists_carrier ready leads paired
  have named := stackName_of_presents (pass_calm ready).named presents alarms
  exact ⟨_, mem_seeds.mpr ⟨name, observed, presents, rfl⟩, named,
    (List.mem_filter.mp (List.of_mem_zip paired).1).1, renewed alarms,
    fun _ => ⟨name, named, paired⟩⟩

end Succession

section Return

variable (ready : controller.Ready circumstances later world demand)
  (leads : controller.Leads circumstances later world demand names)
  (distinct : (demand.resolved.map fun resolved => resolved.endpoint.id).Nodup)

include ready leads distinct

theorem successor_unique {descriptor first second : Descriptor}
    (filled : descriptor.hasEndpoints = true)
    (member : first ∈
      (controller.seeds (controller.pass circumstances world).world alarms).descriptors)
    (member' : second ∈
      (controller.seeds (controller.pass circumstances world).world alarms).descriptors)
    (succeeds : controller.Succeeds circumstances later world demand names descriptor first)
    (succeeds' : controller.Succeeds circumstances later world demand names descriptor second) :
    first = second := by
  obtain ⟨name, called, paired⟩ := succeeds.named filled
  obtain ⟨name', called', paired'⟩ := succeeds'.named filled
  obtain rfl : name = name' := Pairs.zip_right_unique leads.housed
    (Placement.desired_nodup distinct) paired paired'
  have named := (pass_calm ready).named
  obtain ⟨other, observed, presents, rfl⟩ := mem_seeds.mp member
  obtain ⟨other', observed', presents', rfl⟩ := mem_seeds.mp member'
  rw [stackName_of_presents named presents, Option.some.injEq] at called
  rw [stackName_of_presents named presents', Option.some.injEq] at called'
  subst called called'
  rw [Cloud.presents_unique presents presents']

variable (undisputed : Placement.Undisputed controller.placementPolicy circumstances.now
  (controller.placing circumstances.now world demand))

include undisputed

/-- An endpoint prefers the stack of the load balancer that it is on. -/
theorem prefers_iff {descriptor seed : Descriptor} {resolved other : ResolvedEndpoint}
    (member : seed ∈
      (controller.seeds (controller.pass circumstances world).world alarms).descriptors)
    (succeeds : controller.Succeeds circumstances later world demand names descriptor seed)
    (demanded : resolved ∈ demand.resolved) (same : resolved.unreported = other.unreported)
    (fits : Placement.Fits controller.placementPolicy resolved.certificates) :
    Placement.preferred? controller.placementPolicy circumstances.now
        (controller.seeds (controller.pass circumstances world).world alarms).descriptors other
      = some seed ↔
    Placement.Settles controller.placementPolicy circumstances.now descriptor resolved := by
  -- What attracts the endpoint in the next pass has attracted it before.
  have attracted_before {source seed : Descriptor}
      (succeeds : controller.Succeeds circumstances later world demand names source seed)
      (attracted : Placement.attracts controller.placementPolicy circumstances.now other seed
        = true) :
      Placement.attracts controller.placementPolicy circumstances.now resolved source = true :=
    (Placement.attracts_congr succeeds.renewed.alike same).trans attracted
  constructor
  · intro prefers
    obtain ⟨own, wanted, settles⟩ := Placement.settled_placeAll
      (controller.seeds world demand.alarms) (Placement.byIdentity demand.resolved) resolved
      (Placement.mem_byIdentity.mpr demanded) fits
    obtain rfl : descriptor = own := Placement.eq_of_attracts distinct undisputed
      (List.mem_filter.mp wanted).1 succeeds.placed demanded fits settles
      (attracted_before succeeds (List.find?_some prefers))
    exact settles
  · intro settles
    have attracted : Placement.attracts controller.placementPolicy circumstances.now other seed
        = true :=
      Placement.attracts_of_hosts
        (Placement.hosts_congr succeeds.renewed.alike same settles.toHosts)
        (Placement.certificates_congr same ▸ fits)
    cases found : Placement.preferred? controller.placementPolicy circumstances.now
        (controller.seeds (controller.pass circumstances world).world alarms).descriptors other with
    | none => exact absurd attracted (List.find?_eq_none.mp found seed member)
    | some home =>
        have present := List.mem_of_find?_eq_some found
        obtain ⟨source, succeeds'⟩ := exists_source ready leads present
        obtain rfl : source = descriptor := Placement.eq_of_attracts distinct undisputed
          succeeds.placed succeeds'.placed demanded fits settles
          (attracted_before succeeds' (List.find?_some found))
        rw [successor_unique ready leads distinct (Placement.hasEndpoints_of_settles settles fits)
          member present succeeds succeeds']

variable (same : next.resolved.map ResolvedEndpoint.unreported
  = demand.resolved.map ResolvedEndpoint.unreported)

include same

theorem homed_next :
    controller.Homed circumstances.now (controller.pass circumstances world).world next := by
  intro other member fits
  obtain ⟨resolved, demanded, alike⟩ :=
    Placement.exists_counterpart same (Placement.mem_byIdentity.mp member)
  have fits' : Placement.Fits controller.placementPolicy resolved.certificates :=
    Placement.certificates_congr alike ▸ fits
  obtain ⟨descriptor, wanted, settles⟩ := Placement.settled_placeAll
    (controller.seeds world demand.alarms) (Placement.byIdentity demand.resolved) resolved
    (Placement.mem_byIdentity.mpr demanded) fits'
  obtain ⟨name, paired⟩ := Pairs.exists_zip leads.housed wanted
  obtain ⟨seed, present, _, succeeds⟩ := exists_successor ready leads paired next.alarms
  exact ⟨seed, (prefers_iff ready leads distinct undisputed present succeeds demanded alike.symm
    fits').mpr settles, Placement.hosts_congr succeeds.renewed.alike alike.symm settles.toHosts⟩

section Back

variable {descriptor seed again : Descriptor}
  (member : seed ∈
    (controller.seeds (controller.pass circumstances world).world alarms).descriptors)
  (succeeds : controller.Succeeds circumstances later world demand names descriptor seed)
  (regained : Placement.Regained controller.placementPolicy circumstances.now
    (controller.seeds (controller.pass circumstances world).world alarms).descriptors
    (Placement.byIdentity next.resolved) seed again)

include member succeeds regained

theorem entered_again {id : CertificateId} {endpoint : Endpoint}
    (entered : descriptor.Enters id endpoint) :
    ∃ other, again.Enters id other ∧ other.unreported = endpoint.unreported := by
  refine (Placement.enteredFor_of_settled succeeds.placed (controller.seeds_unused world _)).again
    regained.enteredFor same.symm (fun resolved demanded other _ alike => ?_) entered
  rintro ⟨fits, settles⟩
  exact ⟨Placement.certificates_congr alike ▸ fits, (prefers_iff ready leads distinct undisputed
    member succeeds demanded alike fits).mpr settles⟩

theorem used_again (placed : again ∈ (controller.placing circumstances.now
      (controller.pass circumstances world).world next).descriptors) (id : CertificateId) :
    again.certificates.contains id = descriptor.certificates.contains id := by
  refine (Placement.enteredFor_of_settled succeeds.placed
    (controller.seeds_unused world _)).used_iff regained.enteredFor
    (Placement.ofStacks_peopled descriptor succeeds.placed) (Placement.ofStacks_peopled again placed)
    same.symm (fun resolved demanded other _ alike => ?_) id
  rw [← Placement.certificates_congr alike]
  exact and_congr_right fun fits =>
    (prefers_iff ready leads distinct undisputed member succeeds demanded alike fits).symm

end Back

theorem restores_of_undisputed :
    controller.Restores circumstances later world demand next where
  source := by
    intro again placed
    obtain ⟨seed, member, regained⟩ := Pairs.exists_left
      (placing_regained (pass_calm ready) (homed_next ready leads distinct undisputed same)) placed
    obtain ⟨descriptor, succeeds⟩ := exists_source ready leads member
    exact ⟨descriptor, succeeds.placed, seed, succeeds.renewed, regained.existing,
      used_again ready leads distinct undisputed same member succeeds regained placed⟩
  again := by
    intro former wanted old existing
    obtain ⟨name, paired⟩ := Pairs.exists_zip leads.housed wanted
    obtain rfl := (List.forall₂_zip leads.housed paired).old old existing
    obtain ⟨seed, member, called, succeeds⟩ := exists_successor ready leads paired next.alarms
    obtain ⟨again, placed, regained⟩ := Pairs.exists_right
      (placing_regained (pass_calm ready) (homed_next ready leads distinct undisputed same)) member
    refine ⟨again, placed, ?_, seed, succeeds.renewed, regained.existing,
      used_again ready leads distinct undisputed same member succeeds regained placed⟩
    rw [Descriptor.stackName?, regained.existing]
    exact called

theorem serves_again {descriptor : Descriptor} {name : StackName}
    (paired : (descriptor, name)
      ∈ (controller.placing circumstances.now world demand).desired.zip names)
    {endpoint : Endpoint} (listed : endpoint ∈ descriptor.endpoints) :
    (controller.placing circumstances.now (controller.pass circumstances world).world
      next).ServesAt name endpoint := by
  obtain ⟨seed, member, called, succeeds⟩ := exists_successor ready leads paired next.alarms
  obtain ⟨again, placed, regained⟩ := Pairs.exists_right
    (placing_regained (pass_calm ready) (homed_next ready leads distinct undisputed same)) member
  obtain ⟨id, entered⟩ := Descriptor.serves_of_mem_endpoints listed
  obtain ⟨other, entered', alike⟩ := entered_again ready leads distinct undisputed same member
    succeeds regained entered
  have ids : next.resolved.map (fun resolved => resolved.endpoint.id)
      = demand.resolved.map fun resolved => resolved.endpoint.id := by
    have seen := congrArg (List.map fun resolved => resolved.endpoint.id) same
    rwa [List.map_map, List.map_map] at seen
  have distinct' : (next.resolved.map fun resolved => resolved.endpoint.id).Nodup := ids ▸ distinct
  refine ⟨again, placed, ?_, other, ?_, alike⟩
  · rw [Descriptor.stackName?, regained.existing]
    exact called
  · exact (Descriptor.mem_endpoints_iff_serves (fun _ _ => Placement.serves_unique
      (Placement.byIdentity_ids_nodup distinct') (Placement.ofStacks_accounts distinct') placed)
      other).mpr ⟨id, entered'⟩

end Return

end Controller

end IngressControl
