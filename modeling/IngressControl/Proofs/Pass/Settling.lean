import IngressControl.Proofs.Pass.Steady
/-!
How passes come to rest.

A pass on a steady world takes up room on the stacks unless every endpoint is at home already. Then
it leaves them there, the next one finds them at home again, and no stack is to be mended.
-/

namespace IngressControl.Controller

variable {controller : Controller} {circumstances : Circumstances} {world : World} {later : Instant}
  {demand next : Demand}

def Homed (controller : Controller) (now : Instant) (world : World) (demand : Demand) : Prop :=
  Placement.Homed controller.placementPolicy now (controller.seeds world demand.alarms).descriptors
    (Placement.byIdentity demand.resolved)

def room (controller : Controller) (now : Instant) (world : World) (demand : Demand) : Nat :=
  Placement.room controller.placementPolicy now (controller.seeds world demand.alarms).descriptors

theorem homed_or_less_room (steady : controller.Steady circumstances later world demand)
    (next : Demand) :
    controller.Homed circumstances.now world demand ∨
      controller.room circumstances.now (controller.pass circumstances world).world next
        < controller.room circumstances.now world demand := by
  have hosted : Placement.Hosted controller.placementPolicy circumstances.now
      (Placement.byIdentity demand.resolved) (controller.seeds world demand.alarms).descriptors :=
    fun resolved member => steady.hosted resolved (Placement.mem_byIdentity.mp member)
  have filling : controller.Homed circumstances.now world demand ∨
      Placement.room controller.placementPolicy circumstances.now
          (controller.placing circumstances.now world demand).descriptors
        < controller.room circumstances.now world demand := Placement.homed_or_room_lt hosted
  refine filling.imp_right fun less => ?_
  have left := Placement.room_of_alike controller.placementPolicy <|
    (pass_renewed steady.toReady (steady_grown steady) next.alarms).imp
      fun _ _ renews => renews.2.alike
  rw [room, left]
  exact Nat.lt_of_le_of_lt (Placement.room_le_of_sublist _ _ List.filter_sublist) less

theorem seeds_nodup (calm : controller.Calm world) (alarms : Option AlarmSet) :
    (controller.seeds world alarms).descriptors.Nodup := by
  apply List.Nodup.of_map Descriptor.stackName?
  rw [seeds_names]
  exact (names_nodup calm).map fun _ _ => Option.some.inj

theorem placing_nodup (steady : controller.Steady circumstances later world demand) :
    (controller.placing circumstances.now world demand).descriptors.Nodup := by
  apply List.Nodup.of_map Descriptor.stackName?
  rw [placing_names (steady_grown steady)]
  exact (names_nodup steady.calm).map fun _ _ => Option.some.inj

theorem seeds_unused (controller : Controller) (world : World) (alarms : Option AlarmSet) :
    ∀ seed ∈ (controller.seeds world alarms).descriptors, seed.certificates = {} := by
  intro seed member
  obtain ⟨_, _, _, rfl⟩ := mem_seeds.mp member
  rfl

theorem placing_regained (calm : controller.Calm world)
    (homed : controller.Homed circumstances.now world demand) :
    List.Forall₂
      (Placement.Regained controller.placementPolicy circumstances.now
        (controller.seeds world demand.alarms).descriptors (Placement.byIdentity demand.resolved))
      (controller.seeds world demand.alarms).descriptors
      (controller.placing circumstances.now world demand).descriptors :=
  Placement.regained_placeAll (seeds_nodup calm _) (controller.seeds_unused world _) homed

section AtHome

variable (steady : controller.Steady circumstances later world demand)
  (homed : controller.Homed circumstances.now world demand)

include steady homed

/-- The load balancer from which an endpoint has found home leads to the one from which it does so
in the next pass. -/
theorem preferred_next (alarms : Option AlarmSet) {resolved other : ResolvedEndpoint}
    (member : resolved ∈ Placement.byIdentity demand.resolved)
    (same : resolved.unreported = other.unreported)
    (fits : Placement.Fits controller.placementPolicy resolved.certificates) {home : Descriptor}
    (prefers : Placement.preferred? controller.placementPolicy circumstances.now
      (controller.seeds world demand.alarms).descriptors resolved = some home) :
    ∃ descriptor seed,
      (home, descriptor) ∈ (controller.seeds world demand.alarms).descriptors.zip
        (controller.placing circumstances.now world demand).descriptors ∧
      (descriptor, seed) ∈ ((controller.placing circumstances.now world demand).descriptors.filter
        (controller.survives circumstances world)).zip
        (controller.seeds (controller.pass circumstances world).world alarms).descriptors ∧
      Placement.preferred? controller.placementPolicy circumstances.now
        (controller.seeds (controller.pass circumstances world).world alarms).descriptors other
        = some seed := by
  have pairs := placing_regained steady.calm homed
  obtain ⟨descriptor, paired, found⟩ := Pairs.find?_zip
    (fun _ _ regained => Placement.attracts_congr regained.alike rfl) pairs prefers
  have regained := List.forall₂_zip pairs paired
  obtain ⟨id, present⟩ := Table.isEmpty_eq_false_iff.mp fits.1
  have entered := (regained.entered id resolved.endpoint).mpr
    ⟨resolved, member, fits, prefers, rfl, present⟩
  have kept := survives_of_filled steady.toReady (steady_grown steady)
    (List.mem_of_find?_eq_some found) (Descriptor.hasEndpoints_of_serves ⟨id, entered⟩)
  have found : ((controller.placing circumstances.now world demand).descriptors.filter
      (controller.survives circumstances world)).find?
        (Placement.attracts controller.placementPolicy circumstances.now resolved)
      = some descriptor := by
    obtain ⟨attracted, front, rear, whole, passed⟩ := List.find?_eq_some_iff_append.mp found
    refine List.find?_eq_some_iff_append.mpr ⟨attracted,
      front.filter (controller.survives circumstances world),
      rear.filter (controller.survives circumstances world), ?_,
      fun other early => passed other (List.mem_filter.mp early).1⟩
    rw [whole, List.filter_append, List.filter_cons_of_pos kept]
  obtain ⟨seed, paired', found'⟩ := Pairs.find?_zip
    (fun _ _ renews => Placement.attracts_congr renews.2.alike same)
    (pass_renewed steady.toReady (steady_grown steady) alarms) found
  exact ⟨descriptor, seed, paired, paired', found'⟩

/-- An endpoint finds home from a seed just when it did so from what the seed goes back to. -/
theorem preferred_next_iff {alarms : Option AlarmSet} {resolved other : ResolvedEndpoint}
    (member : resolved ∈ Placement.byIdentity demand.resolved)
    (same : resolved.unreported = other.unreported)
    (fits : Placement.Fits controller.placementPolicy resolved.certificates)
    {home former seed : Descriptor}
    (paired : (home, former) ∈ (controller.seeds world demand.alarms).descriptors.zip
      (controller.placing circumstances.now world demand).descriptors)
    (renewed : (former, seed) ∈ ((controller.placing circumstances.now world
      demand).descriptors.filter (controller.survives circumstances world)).zip
      (controller.seeds (controller.pass circumstances world).world alarms).descriptors) :
    Placement.preferred? controller.placementPolicy circumstances.now
        (controller.seeds world demand.alarms).descriptors resolved = some home ↔
      Placement.preferred? controller.placementPolicy circumstances.now
        (controller.seeds (controller.pass circumstances world).world alarms).descriptors other
        = some seed := by
  have pairs := placing_regained steady.calm homed
  have renewing := pass_renewed steady.toReady (steady_grown steady) alarms
  constructor
  · intro prefers
    obtain ⟨descriptor, seed', paired', renewed', found⟩ :=
      preferred_next steady homed alarms member same fits prefers
    obtain rfl : descriptor = former :=
      Pairs.zip_right_unique pairs (seeds_nodup steady.calm _) paired' paired
    obtain rfl : seed' = seed :=
      Pairs.zip_right_unique renewing ((placing_nodup steady).filter _) renewed' renewed
    exact found
  · intro prefers'
    obtain ⟨home', prefers, _⟩ := homed resolved member fits
    obtain ⟨descriptor, seed', paired', renewed', found⟩ :=
      preferred_next steady homed alarms member same fits prefers
    obtain rfl : seed' = seed := Option.some.inj (found.symm.trans prefers')
    obtain rfl : descriptor = former :=
      Pairs.zip_left_unique renewing (seeds_nodup (pass_calm steady.toReady) _) renewed' renewed
    rw [prefers, Pairs.zip_left_unique pairs (placing_nodup steady) paired' paired]

variable (same : next.resolved.map ResolvedEndpoint.unreported
  = demand.resolved.map ResolvedEndpoint.unreported)

include same

theorem homed_again :
    controller.Homed circumstances.now (controller.pass circumstances world).world next := by
  intro other member fits
  obtain ⟨resolved, demanded, alike⟩ :=
    Placement.exists_counterpart same (Placement.mem_byIdentity.mp member)
  have member := Placement.mem_byIdentity.mpr demanded
  rw [Placement.certificates_congr alike] at fits
  obtain ⟨home, prefers, hosts⟩ := homed resolved member fits
  obtain ⟨descriptor, seed, paired, paired', prefers'⟩ :=
    preferred_next steady homed next.alarms member alike.symm fits prefers
  have regained := List.forall₂_zip (placing_regained steady.calm homed) paired
  have renews := List.forall₂_zip
    (pass_renewed steady.toReady (steady_grown steady) next.alarms) paired'
  exact ⟨seed, prefers', Placement.hosts_congr renews.2.alike alike.symm <|
    Placement.hosts_congr regained.alike rfl hosts⟩

theorem used_of_homed {former seed again : Descriptor}
    (renewed : (former, seed) ∈ ((controller.placing circumstances.now world
      demand).descriptors.filter (controller.survives circumstances world)).zip
      (controller.seeds (controller.pass circumstances world).world next.alarms).descriptors)
    (placed : again ∈ (controller.placing circumstances.now
      (controller.pass circumstances world).world next).descriptors)
    (regained : Placement.Regained controller.placementPolicy circumstances.now
      (controller.seeds (controller.pass circumstances world).world next.alarms).descriptors
      (Placement.byIdentity next.resolved) seed again) (id : CertificateId) :
    again.certificates.contains id = former.certificates.contains id := by
  have pairs := placing_regained steady.calm homed
  have placed' := (List.mem_filter.mp (List.of_mem_zip renewed).1).1
  obtain ⟨home, paired⟩ := Pairs.exists_zip_left pairs placed'
  have regained' := List.forall₂_zip pairs paired
  refine regained'.enteredFor.used_iff regained.enteredFor
    (Placement.ofStacks_peopled former placed') (Placement.ofStacks_peopled again placed) same.symm
    (fun resolved member other _ alike => ?_) id
  rw [← Placement.certificates_congr alike]
  exact and_congr_right fun fits => preferred_next_iff steady homed
    (Placement.mem_byIdentity.mpr member) alike fits paired renewed

theorem restores_of_homed : controller.Restores circumstances later world demand next where
  source := by
    intro again placed
    obtain ⟨seed, member, regained⟩ := Pairs.exists_left
      (placing_regained (pass_calm steady.toReady) (homed_again steady homed same)) placed
    have renewing := pass_renewed steady.toReady (steady_grown steady) next.alarms
    obtain ⟨former, renewed⟩ := Pairs.exists_zip_left renewing member
    exact ⟨former, (List.mem_filter.mp (List.of_mem_zip renewed).1).1, seed,
      (List.forall₂_zip renewing renewed).2, regained.existing,
      used_of_homed steady homed same renewed placed regained⟩
  again := by
    intro former wanted old existing
    obtain ⟨placed, filled⟩ := List.mem_filter.mp wanted
    have grown := steady_grown steady
    have renewing := pass_renewed steady.toReady grown next.alarms
    obtain ⟨seed, renewed⟩ := Pairs.exists_zip renewing <|
      List.mem_filter.mpr ⟨placed, survives_of_filled steady.toReady grown placed filled⟩
    obtain ⟨called, renews⟩ := List.forall₂_zip renewing renewed
    obtain ⟨again, placed', regained⟩ := Pairs.exists_right
      (placing_regained (pass_calm steady.toReady) (homed_again steady homed same))
      (List.of_mem_zip renewed).2
    refine ⟨again, placed', ?_, seed, renews, regained.existing,
      used_of_homed steady homed same renewed placed' regained⟩
    rw [Descriptor.stackName?, regained.existing, ← Descriptor.stackName?, called,
      Descriptor.stackName?, existing]
    rfl

end AtHome

end IngressControl.Controller
