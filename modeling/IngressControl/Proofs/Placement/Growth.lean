import Mathlib.Algebra.GroupWithZero.Nat
import Mathlib.Data.List.Perm.Subperm
import IngressControl.Proofs.Placement.Likeness
import IngressControl.Proofs.Placement.Soundness
/-!
How load balancers fill up.

An endpoint that is placed stays welcome where it is: its certificates have their places, and no
later endpoint drives the load balancer over the limit. When every endpoint is welcome somewhere to
begin with, no load balancer is started; whoever joins one then either leaves its certificates as
they are or takes up room.
-/

namespace IngressControl

namespace KeySet

variable {κ : Type} [Ord κ] [Std.TransOrd κ] [Std.LawfulEqOrd κ]

theorem eq_or_size_lt {first second : KeySet κ}
    (within : ∀ key, first.contains key = true → second.contains key = true) :
    second = first ∨ first.size < second.size := by
  have subset : first.keys ⊆ second.keys := fun key member =>
    Table.mem_keys_iff.mpr (within key (Table.mem_keys_iff.mp member))
  have inside := List.subperm_of_subset first.keys_nodup subset
  by_cases short : second.keys.length ≤ first.keys.length
  · refine .inl (eq_of_contains fun key => ?_)
    rw [← Table.mem_keys_iff, ← Table.mem_keys_iff, (inside.perm_of_length_le short).mem_iff]
  · rw [Table.size_eq_keys, Table.size_eq_keys]
    exact .inr (Nat.not_le.mp short)

theorem addAll_of_contained {set : KeySet κ} {keys : List κ}
    (contained : ∀ key ∈ keys, set.contains key = true) : set.addAll keys = set := by
  apply eq_of_contains
  intro key
  rw [contains_addAll]
  exact ⟨fun member => member.elim (contained key) id, .inr⟩

end KeySet

namespace Placement

variable {policy : PlacementPolicy} {alarms : Option AlarmSet} {now : Instant}

/-- The endpoint is welcome on the load balancer, which has places for its certificates already. -/
structure Hosts (policy : PlacementPolicy) (now : Instant) (descriptor : Descriptor)
    (resolved : ResolvedEndpoint) : Prop where
  suits : Suits descriptor resolved.endpoint
  within : (descriptor.occupied now).size ≤ policy.maxCertificates
  covered : ∀ id, resolved.certificates.contains id = true →
    (descriptor.occupied now).contains id = true

theorem accepts_iff {descriptor : Descriptor} {resolved : ResolvedEndpoint} {limit : Nat} :
    descriptor.accepts resolved.endpoint resolved.certificates limit now = true ↔
      Suits descriptor resolved.endpoint ∧
        ((descriptor.occupied now).addAll resolved.certificates.keys).size ≤ limit := by
  constructor
  · intro accepted
    refine ⟨suits_of_accepts accepted, ?_⟩
    simp only [Descriptor.accepts, Bool.and_eq_true, decide_eq_true_eq] at accepted
    exact accepted.2
  · rintro ⟨suits, within⟩
    simp only [Descriptor.accepts, Bool.and_eq_true, decide_eq_true_eq]
    exact ⟨⟨⟨suits.belonging, suits.admitted⟩, suits.placeable⟩, within⟩

theorem accepts_of_hosts {descriptor : Descriptor} {resolved : ResolvedEndpoint}
    (hosts : Hosts policy now descriptor resolved) :
    descriptor.accepts resolved.endpoint resolved.certificates policy.maxCertificates now
      = true := by
  refine accepts_iff.mpr ⟨hosts.suits, ?_⟩
  rw [KeySet.addAll_of_contained fun id member => hosts.covered id (Table.mem_keys_iff.mp member)]
  exact hosts.within

theorem occupied_add_contains {descriptor : Descriptor} {endpoint : Endpoint}
    {certificates : KeySet CertificateId} {id : CertificateId} :
    ((descriptor.add endpoint certificates).occupied now).contains id = true ↔
      certificates.contains id = true ∨ (descriptor.occupied now).contains id = true := by
  rw [Descriptor.occupied_add, KeySet.contains_addAll, Table.mem_keys_iff]

theorem hosts_congr {first second : Descriptor} (alike : Alike now first second)
    {resolved other : ResolvedEndpoint} (same : resolved.unreported = other.unreported)
    (hosts : Hosts policy now first resolved) : Hosts policy now second other where
  suits := by
    have accepted := accepts_of_hosts hosts
    rw [accepts_congr alike same] at accepted
    exact suits_of_accepts accepted
  within := alike.occupied ▸ hosts.within
  covered := by
    rw [← certificates_congr same, ← alike.occupied]
    exact hosts.covered

theorem hosts_add {descriptor : Descriptor} {resolved other : ResolvedEndpoint}
    (hosts : Hosts policy now descriptor resolved)
    (accepted : descriptor.accepts other.endpoint other.certificates policy.maxCertificates now
      = true) : Hosts policy now (descriptor.add other.endpoint other.certificates) resolved where
  suits := suits_add hosts.suits
  within := by
    rw [Descriptor.occupied_add]
    exact (accepts_iff.mp accepted).2
  covered := fun id present => occupied_add_contains.mpr (.inr (hosts.covered id present))

theorem hosts_joined {descriptor : Descriptor} {resolved : ResolvedEndpoint}
    (accepted : descriptor.accepts resolved.endpoint resolved.certificates policy.maxCertificates now
      = true) : Hosts policy now (descriptor.add resolved.endpoint resolved.certificates) resolved where
  suits := suits_add (suits_of_accepts accepted)
  within := by
    rw [Descriptor.occupied_add]
    exact (accepts_iff.mp accepted).2
  covered := fun _ present => occupied_add_contains.mpr (.inl present)

theorem hosts_started {resolved : ResolvedEndpoint} (fits : Fits policy resolved.certificates) :
    Hosts policy now
      ((fresh policy resolved.endpoint alarms).add resolved.endpoint resolved.certificates)
      resolved where
  suits := suits_add (suits_fresh policy resolved.endpoint alarms)
  within := by
    rw [Descriptor.occupied_add_first (fresh_certificates ..) (fresh_existing ..)]
    exact fits.2
  covered := fun _ present => occupied_add_contains.mpr (.inl present)

/-- The load balancers after one more endpoint: as they were if it does not fit, else with it on
one that accepts it or on a new one. -/
theorem next_cases (placement : Placement) (resolved : ResolvedEndpoint) :
    (¬ Fits policy resolved.certificates ∧
      (next policy alarms now placement resolved).descriptors = placement.descriptors) ∨
    (Fits policy resolved.certificates ∧
      ∃ before target behind, placement.descriptors = before ++ target :: behind ∧
        Joins policy now resolved before target behind ∧
        (next policy alarms now placement resolved).descriptors
          = before ++ target.add resolved.endpoint resolved.certificates :: behind) ∨
    (Fits policy resolved.certificates ∧
      (∀ descriptor ∈ placement.descriptors, descriptor.accepts resolved.endpoint
        resolved.certificates policy.maxCertificates now = false) ∧
      (next policy alarms now placement resolved).descriptors = placement.descriptors
        ++ [(fresh policy resolved.endpoint alarms).add resolved.endpoint resolved.certificates]) := by
  rw [next]
  cases placed : place policy alarms now placement.descriptors resolved with
  | error failure =>
      refine .inl ⟨fun fits => ?_, rfl⟩
      rw [place, refusal?_eq_none_iff.mpr fits] at placed
      simp only at placed
      split at placed <;> cases placed
  | ok after =>
      obtain ⟨fits, ⟨before, target, behind, whole, joins, same⟩ | ⟨spurned, same⟩⟩ :=
        place_cases placed
      · exact .inr (.inl ⟨fits, before, target, behind, whole, joins, same⟩)
      · exact .inr (.inr ⟨fits, spurned, same⟩)

def Hosted (policy : PlacementPolicy) (now : Instant) (endpoints : List ResolvedEndpoint)
    (descriptors : List Descriptor) : Prop :=
  ∀ resolved ∈ endpoints, Fits policy resolved.certificates →
    ∃ descriptor ∈ descriptors, Hosts policy now descriptor resolved

theorem not_spurned {endpoints : List ResolvedEndpoint} {descriptors : List Descriptor}
    {resolved : ResolvedEndpoint} (hosted : Hosted policy now endpoints descriptors)
    (member : resolved ∈ endpoints) (fits : Fits policy resolved.certificates) :
    ¬ ∀ descriptor ∈ descriptors, descriptor.accepts resolved.endpoint resolved.certificates
      policy.maxCertificates now = false := by
  intro spurned
  obtain ⟨host, present, hosts⟩ := hosted resolved member fits
  exact nomatch (spurned host present).symm.trans (accepts_of_hosts hosts)

structure Settles (policy : PlacementPolicy) (now : Instant) (descriptor : Descriptor)
    (resolved : ResolvedEndpoint) : Prop extends Hosts policy now descriptor resolved where
  entered : ∀ id, resolved.certificates.contains id = true →
    descriptor.Enters id resolved.endpoint

theorem hasEndpoints_of_settles {descriptor : Descriptor} {resolved : ResolvedEndpoint}
    (settles : Settles policy now descriptor resolved) (fits : Fits policy resolved.certificates) :
    descriptor.hasEndpoints = true := by
  obtain ⟨id, present⟩ := Table.isEmpty_eq_false_iff.mp fits.1
  exact Descriptor.hasEndpoints_of_serves ⟨id, settles.entered id present⟩

theorem exists_host_next {placement : Placement} {host : Descriptor} {resolved : ResolvedEndpoint}
    (present : host ∈ placement.descriptors) (hosts : Hosts policy now host resolved)
    (other : ResolvedEndpoint) :
    ∃ kept ∈ (next policy alarms now placement other).descriptors,
      Hosts policy now kept resolved ∧
        ∀ id endpoint, host.Enters id endpoint → kept.Enters id endpoint := by
  rcases next_cases placement other with
    ⟨_, same⟩ | ⟨_, before, target, behind, whole, joins, same⟩ | ⟨_, _, same⟩
  · exact ⟨host, same ▸ present, hosts, fun _ _ => id⟩
  · rw [same]
    rw [whole] at present
    rcases List.mem_append.mp present with early | late
    · exact ⟨host, List.mem_append_left _ early, hosts, fun _ _ => id⟩
    · rcases List.mem_cons.mp late with rfl | late
      · exact ⟨_, List.mem_append_right _ (.head _), hosts_add hosts joins.accepted,
          fun _ _ entered => Descriptor.enters_add.mpr (.inl entered)⟩
      · exact ⟨host, List.mem_append_right _ (.tail _ late), hosts, fun _ _ => id⟩
  · exact ⟨host, same ▸ List.mem_append_left _ present, hosts, fun _ _ => id⟩

theorem hosted_next {endpoints : List ResolvedEndpoint} {placement : Placement}
    (hosted : Hosted policy now endpoints placement.descriptors) (other : ResolvedEndpoint) :
    Hosted policy now endpoints (next policy alarms now placement other).descriptors := by
  intro resolved member fits
  obtain ⟨host, present, hosts⟩ := hosted resolved member fits
  obtain ⟨kept, present, hosts, _⟩ := exists_host_next present hosts other
  exact ⟨kept, present, hosts⟩

theorem exists_settled_joined {resolved : ResolvedEndpoint} (placement : Placement)
    (fits : Fits policy resolved.certificates) :
    ∃ host ∈ (next policy alarms now placement resolved).descriptors,
      Settles policy now host resolved := by
  have entered (descriptor : Descriptor) (id : CertificateId)
      (present : resolved.certificates.contains id = true) :
      (descriptor.add resolved.endpoint resolved.certificates).Enters id resolved.endpoint :=
    Descriptor.enters_add.mpr (.inr ⟨present, rfl⟩)
  rcases next_cases placement resolved with
    ⟨unfit, _⟩ | ⟨_, before, target, behind, _, joins, same⟩ | ⟨_, _, same⟩
  · exact absurd fits unfit
  · exact ⟨_, same ▸ List.mem_append_right _ (.head _), hosts_joined joins.accepted, entered _⟩
  · exact ⟨_, same ▸ List.mem_append_right _ (.head _), hosts_started fits, entered _⟩

theorem settled_placeAll (seeds : Placement) (endpoints : List ResolvedEndpoint) :
    ∀ resolved ∈ endpoints, Fits policy resolved.certificates →
      ∃ descriptor ∈ (placeAll policy alarms now seeds endpoints).desired,
        Settles policy now descriptor resolved := by
  have settled : ∀ resolved ∈ endpoints, Fits policy resolved.certificates →
      ∃ descriptor ∈ (placeAll policy alarms now seeds endpoints).descriptors,
        Settles policy now descriptor resolved := by
    apply placement_induction fun earlier placement => ∀ resolved ∈ earlier,
      Fits policy resolved.certificates → ∃ descriptor ∈ placement.descriptors,
        Settles policy now descriptor resolved
    · intro resolved member
      cases member
    · intro earlier last placement _ settled resolved member fits
      rcases List.mem_append.mp member with earlier | here
      · obtain ⟨host, present, settles⟩ := settled resolved earlier fits
        obtain ⟨kept, present, hosts, keeps⟩ := exists_host_next present settles.toHosts last
        exact ⟨kept, present, hosts, fun id holds => keeps _ _ (settles.entered id holds)⟩
      · obtain rfl := List.mem_singleton.mp here
        exact exists_settled_joined placement fits
  intro resolved member fits
  obtain ⟨descriptor, present, settles⟩ := settled resolved member fits
  exact ⟨descriptor, List.mem_filter.mpr ⟨present, hasEndpoints_of_settles settles fits⟩, settles⟩

/-- As long as every endpoint is welcome somewhere, no load balancer is started. -/
theorem existing_placeAll {seeds : Placement} {endpoints : List ResolvedEndpoint}
    (hosted : Hosted policy now endpoints seeds.descriptors) :
    (placeAll policy alarms now seeds endpoints).descriptors.map Descriptor.existing
      = seeds.descriptors.map Descriptor.existing := by
  refine (placement_induction (fun _ placement =>
    Hosted policy now endpoints placement.descriptors ∧
      placement.descriptors.map Descriptor.existing = seeds.descriptors.map Descriptor.existing)
    endpoints ⟨hosted, rfl⟩ ?_).2
  rintro earlier resolved placement below ⟨hosted, kept⟩
  refine ⟨hosted_next hosted resolved, ?_⟩
  rcases next_cases placement resolved with
    ⟨_, same⟩ | ⟨_, before, target, behind, whole, _, same⟩ | ⟨fits, spurned, _⟩
  · rw [same, kept]
  · rw [whole] at kept
    rw [same, ← kept]
    simp
  · exact absurd spurned (not_spurned hosted (below.subset (by simp)) fits)

def room (policy : PlacementPolicy) (now : Instant) (descriptors : List Descriptor) : Nat :=
  (descriptors.map fun descriptor =>
    policy.maxCertificates - (descriptor.occupied now).size).sum

theorem room_le (policy : PlacementPolicy) (now : Instant) (descriptors : List Descriptor) :
    room policy now descriptors ≤ policy.maxCertificates * descriptors.length := by
  induction descriptors with
  | nil => simp [room]
  | cons descriptor rest ih =>
      simp only [room, List.map_cons, List.sum_cons, List.length_cons, Nat.mul_succ] at ih ⊢
      omega

theorem room_le_of_sublist (policy : PlacementPolicy) (now : Instant)
    {kept descriptors : List Descriptor} (some : kept.Sublist descriptors) :
    room policy now kept ≤ room policy now descriptors := by
  induction some with
  | slnil => exact Nat.le_refl _
  | cons descriptor _ ih => exact Nat.le_add_left_of_le ih
  | cons_cons descriptor _ ih => exact Nat.add_le_add_left ih _

theorem room_of_alike (policy : PlacementPolicy) {firsts seconds : List Descriptor}
    (alike : List.Forall₂ (Alike now) firsts seconds) :
    room policy now seconds = room policy now firsts := by
  induction alike with
  | nil => rfl
  | cons here _ ih =>
      simp only [room, List.map_cons, List.sum_cons] at ih ⊢
      rw [here.occupied, ih]

/-- An endpoint that joins a load balancer takes up room unless all its certificates have their
places there. -/
theorem room_joined (before behind : List Descriptor) {target : Descriptor}
    {resolved : ResolvedEndpoint}
    (accepted : target.accepts resolved.endpoint resolved.certificates policy.maxCertificates now
      = true) :
    (target.add resolved.endpoint resolved.certificates).occupied now = target.occupied now ∨
    room policy now (before ++ target.add resolved.endpoint resolved.certificates :: behind)
      < room policy now (before ++ target :: behind) := by
  have kept (id : CertificateId) (present : (target.occupied now).contains id = true) :
      ((target.add resolved.endpoint resolved.certificates).occupied now).contains id = true :=
    occupied_add_contains.mpr (.inr present)
  refine (KeySet.eq_or_size_lt kept).imp_right fun more => ?_
  have within := (accepts_iff.mp accepted).2
  rw [← Descriptor.occupied_add target resolved.endpoint] at within
  simp only [room, List.map_append, List.map_cons, List.sum_append, List.sum_cons]
  omega

end Placement

end IngressControl
