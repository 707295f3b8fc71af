import IngressControl.Proofs.Placement.Growth
import IngressControl.Proofs.Placement.Order
/-!
No load balancer is started needlessly.

Endpoints come in the order of their identities, so the one that a load balancer was started for is the
first on it for ever. Those in front did not accept it then; they have only filled up since, and do not
accept it in the end. Where an endpoint joins a load balancer, it does so without a shared certificate
only if none that accepts it has one.
-/

namespace IngressControl

namespace Descriptor

theorem length_enterAll {certificates : Table CertificateId (List Endpoint)} {endpoint : Endpoint}
    {ids : List CertificateId} {wanted : CertificateId} :
    (((enterAll certificates endpoint ids).get? wanted).getD []).length
      = ((certificates.get? wanted).getD []).length + ids.count wanted := by
  induction ids generalizing certificates with
  | nil => rfl
  | cons id rest ih =>
      rw [enterAll, ih, enter]
      by_cases same : wanted = id
      · subst same
        simp only [Table.get?_insert_self, Option.getD_some, List.length_append,
          List.length_singleton, List.count_cons_self]
        omega
      · rw [Table.get?_insert_of_ne _ same, List.count_cons_of_ne (Ne.symm same)]

theorem add_ne (descriptor : Descriptor) (endpoint : Endpoint)
    {certificates : KeySet CertificateId} (filled : certificates.isEmpty = false) :
    descriptor.add endpoint certificates ≠ descriptor := by
  intro same
  obtain ⟨id, present⟩ := Table.isEmpty_eq_false_iff.mp filled
  have kept : enterAll descriptor.certificates endpoint certificates.keys
      = descriptor.certificates := congrArg Descriptor.certificates same
  have entered : ((descriptor.certificates.get? id).getD []).length
      = ((descriptor.certificates.get? id).getD []).length + certificates.keys.count id := by
    rw [← length_enterAll, kept]
  have counted := List.count_pos_iff.mpr (Table.mem_keys_iff.mpr present)
  omega

end Descriptor

namespace Placement

variable {policy : PlacementPolicy} {alarms : Option AlarmSet} {now : Instant}
  {descriptor prior home : Descriptor} {resolved founder : ResolvedEndpoint}
  {earlier : List ResolvedEndpoint} {placement : Placement}

theorem accepts_of_add {other : Endpoint} {certificates : KeySet CertificateId} {limit : Nat}
    (accepted : (descriptor.add other certificates).accepts resolved.endpoint resolved.certificates
      limit now = true) :
    descriptor.accepts resolved.endpoint resolved.certificates limit now = true := by
  obtain ⟨suits, within⟩ := accepts_iff.mp accepted
  refine accepts_iff.mpr
    ⟨⟨suits.admitted, suits.belonging, suits.placeable⟩, Nat.le_trans ?_ within⟩
  have grown (id : CertificateId)
      (present : ((descriptor.occupied now).addAll resolved.certificates.keys).contains id = true) :
      (((descriptor.add other certificates).occupied now).addAll
        resolved.certificates.keys).contains id = true := by
    rw [KeySet.contains_addAll] at present ⊢
    exact present.imp_right fun kept => occupied_add_contains.mpr (.inr kept)
  rcases KeySet.eq_or_size_lt grown with same | more
  · rw [same]
  · exact Nat.le_of_lt more

/-- One of the endpoints dealt with is on the load balancer, under exactly its certificates and with
the smallest identity. -/
structure Founds (earlier : List ResolvedEndpoint) (descriptor : Descriptor)
    (founder : ResolvedEndpoint) : Prop where
  member : founder ∈ earlier
  served : descriptor.Serves founder.endpoint
  accommodated : Accommodates founder descriptor
  first : ∀ endpoint, descriptor.Serves endpoint → endpoint = founder.endpoint ∨
    compare founder.endpoint.id endpoint.id = .lt

theorem founds_unique {other : ResolvedEndpoint} (founds : Founds earlier descriptor founder)
    (founds' : Founds earlier descriptor other) : founder = other := by
  have endpoints : founder.endpoint = other.endpoint := by
    rcases founds.first _ founds'.served with same | below
    · exact same.symm
    · rcases founds'.first _ founds.served with same | above
      · exact same
      · exact absurd above (Std.OrientedCmp.not_lt_of_lt below)
  have certificates : founder.certificates = other.certificates := by
    apply KeySet.eq_of_contains
    intro id
    rw [← founds.accommodated id, endpoints, founds'.accommodated id]
  obtain ⟨endpoint, certified⟩ := founder
  cases endpoints
  cases certificates
  rfl

theorem founds_append (founds : Founds earlier descriptor founder) (resolved : ResolvedEndpoint) :
    Founds (earlier ++ [resolved]) descriptor founder :=
  { founds with member := List.mem_append_left _ founds.member }

theorem founds_add (founds : Founds earlier descriptor founder)
    (later : compare founder.endpoint.id resolved.endpoint.id = .lt) :
    Founds (earlier ++ [resolved]) (descriptor.add resolved.endpoint resolved.certificates)
      founder where
  member := List.mem_append_left _ founds.member
  served := founds.served.imp fun _ entered => Descriptor.enters_add.mpr (.inl entered)
  accommodated := by
    refine accommodates_add (fun same => ?_) founds.accommodated
    rw [same] at later
    exact nomatch (Std.ReflCmp.compare_self (a := resolved.endpoint.id)).symm.trans later
  first := by
    intro endpoint served
    rcases Descriptor.serves_add served with old | rfl
    · exact founds.first endpoint old
    · exact .inr later

theorem founds_started {started : Descriptor} (unused : started.certificates = {})
    (fits : Fits policy resolved.certificates) :
    Founds (earlier ++ [resolved]) (started.add resolved.endpoint resolved.certificates)
      resolved where
  member := by simp
  served := by
    obtain ⟨id, present⟩ := Table.isEmpty_eq_false_iff.mp fits.1
    exact ⟨id, Descriptor.enters_add.mpr (.inr ⟨present, rfl⟩)⟩
  accommodated := accommodates_new fun endpoint served =>
    absurd served (Descriptor.not_serves_of_unused unused endpoint)
  first := by
    intro endpoint served
    rcases Descriptor.serves_add served with old | same
    · exact absurd old (Descriptor.not_serves_of_unused unused endpoint)
    · exact .inl same

def Needs (policy : PlacementPolicy) (now : Instant) (earlier : List ResolvedEndpoint)
    (prior started : Descriptor) : Prop :=
  started.existing = none → ∃ founder, Founds earlier started founder ∧
    prior.accepts founder.endpoint founder.certificates policy.maxCertificates now = false

/-- Every new load balancer has a founder, who found no room in front of it. -/
structure Founded (policy : PlacementPolicy) (now : Instant) (earlier : List ResolvedEndpoint)
    (descriptors : List Descriptor) : Prop where
  founder : ∀ descriptor ∈ descriptors, descriptor.existing = none →
    ∃ founder, Founds earlier descriptor founder
  needs : descriptors.Pairwise (Needs policy now earlier)

theorem needs_append (needs : Needs policy now earlier prior descriptor)
    (resolved : ResolvedEndpoint) :
    Needs policy now (earlier ++ [resolved]) prior descriptor := fun started =>
  (needs started).imp fun _ found => ⟨founds_append found.1 resolved, found.2⟩

theorem needs_prior_add {endpoint : Endpoint} {certificates : KeySet CertificateId}
    (needs : Needs policy now earlier prior descriptor) :
    Needs policy now earlier (prior.add endpoint certificates) descriptor := fun started =>
  (needs started).imp fun _ found =>
    ⟨found.1, Bool.eq_false_iff.mpr (Bool.eq_false_iff.mp found.2 ∘ accepts_of_add)⟩

theorem needs_add (needs : Needs policy now earlier prior descriptor)
    (later : ∀ other ∈ earlier, compare other.endpoint.id resolved.endpoint.id = .lt) :
    Needs policy now (earlier ++ [resolved]) prior
      (descriptor.add resolved.endpoint resolved.certificates) := fun started =>
  (needs started).imp fun founder found =>
    ⟨founds_add found.1 (later founder found.1.member), found.2⟩

theorem founded_append {descriptors : List Descriptor}
    (founded : Founded policy now earlier descriptors) (resolved : ResolvedEndpoint) :
    Founded policy now (earlier ++ [resolved]) descriptors where
  founder descriptor member started :=
    (founded.founder descriptor member started).imp fun _ founds => founds_append founds resolved
  needs := founded.needs.imp fun needs => needs_append needs resolved

theorem founded_joined {before behind : List Descriptor} {target : Descriptor}
    (founded : Founded policy now earlier (before ++ target :: behind))
    (later : ∀ other ∈ earlier, compare other.endpoint.id resolved.endpoint.id = .lt) :
    Founded policy now (earlier ++ [resolved])
      (before ++ target.add resolved.endpoint resolved.certificates :: behind) where
  founder := by
    have kept := (founded_append founded resolved).founder
    intro descriptor member started
    rcases List.mem_append.mp member with early | late
    · exact kept descriptor (List.mem_append_left _ early) started
    · rcases List.mem_cons.mp late with rfl | late
      · obtain ⟨founder, founds⟩ := founded.founder target (by simp) started
        exact ⟨founder, founds_add founds (later founder founds.member)⟩
      · exact kept descriptor (List.mem_append_right _ (.tail _ late)) started
  needs := by
    refine pairwise_replace (founded_append founded resolved).needs (fun prior early _ => ?_)
      fun _ _ needs => needs_prior_add needs
    exact needs_add ((List.pairwise_append.mp founded.needs).2.2 prior early target (.head _)) later

theorem founded_started {descriptors : List Descriptor} {started : Descriptor}
    (founded : Founded policy now earlier descriptors) (unused : started.certificates = {})
    (fits : Fits policy resolved.certificates)
    (spurned : ∀ prior ∈ descriptors, prior.accepts resolved.endpoint resolved.certificates
      policy.maxCertificates now = false) :
    Founded policy now (earlier ++ [resolved])
      (descriptors ++ [started.add resolved.endpoint resolved.certificates]) where
  founder := by
    intro descriptor member new
    rcases List.mem_append.mp member with old | last
    · exact (founded_append founded resolved).founder descriptor old new
    · rw [List.mem_singleton.mp last]
      exact ⟨resolved, founds_started unused fits⟩
  needs := by
    refine List.pairwise_append.mpr
      ⟨(founded_append founded resolved).needs, List.pairwise_singleton _ _, ?_⟩
    intro prior old descriptor last _
    rw [List.mem_singleton.mp last]
    exact ⟨resolved, founds_started unused fits, spurned prior old⟩

theorem founded_next (founded : Founded policy now earlier placement.descriptors)
    (later : ∀ other ∈ earlier, compare other.endpoint.id resolved.endpoint.id = .lt) :
    Founded policy now (earlier ++ [resolved])
      (next policy alarms now placement resolved).descriptors := by
  rcases next_cases placement resolved with
    ⟨_, same⟩ | ⟨_, before, target, behind, whole, _, same⟩ | ⟨fits, spurned, same⟩
  · rw [same]
    exact founded_append founded resolved
  · rw [same]
    exact founded_joined (whole ▸ founded) later
  · rw [same]
    exact founded_started founded (fresh_certificates ..) fits spurned

theorem founded_placeAll {seeds : Placement} {endpoints : List ResolvedEndpoint}
    (increasing : endpoints.Pairwise fun lower upper =>
      compare lower.endpoint.id upper.endpoint.id = .lt)
    (provisioned : ∀ seed ∈ seeds.descriptors, seed.existing ≠ none) :
    Founded policy now endpoints (placeAll policy alarms now seeds endpoints).descriptors := by
  apply placement_induction fun earlier placement => Founded policy now earlier placement.descriptors
  · refine ⟨fun seed member started => absurd started (provisioned seed member), ?_⟩
    exact List.pairwise_of_forall_mem_list fun _ _ seed member started =>
      absurd started (provisioned seed member)
  · intro earlier resolved placement below founded
    have sorted := increasing.sublist below.sublist
    exact founded_next founded fun other member =>
      (List.pairwise_append.mp sorted).2.2 other member resolved (.head _)

/-- An endpoint is placed on one of the load balancers or on a new one; `home` is what it was before. -/
inductive Lands (policy : PlacementPolicy) (alarms : Option AlarmSet) (resolved : ResolvedEndpoint) :
    List Descriptor → Descriptor → List Descriptor → Prop
  | joined (before : List Descriptor) (home : Descriptor) (behind : List Descriptor) :
      Lands policy alarms resolved (before ++ home :: behind) home
        (before ++ home.add resolved.endpoint resolved.certificates :: behind)
  | started (former : List Descriptor) :
      Lands policy alarms resolved former (fresh policy resolved.endpoint alarms)
        (former ++ [(fresh policy resolved.endpoint alarms).add resolved.endpoint
          resolved.certificates])

theorem exists_lands (placement : Placement) (fits : Fits policy resolved.certificates) :
    ∃ home, Lands policy alarms resolved placement.descriptors home
      (next policy alarms now placement resolved).descriptors := by
  rcases next_cases placement resolved with
    ⟨unfit, _⟩ | ⟨_, before, target, behind, whole, _, same⟩ | ⟨_, _, same⟩
  · exact absurd fits unfit
  · rw [whole, same]
    exact ⟨target, .joined before target behind⟩
  · rw [same]
    exact ⟨_, .started placement.descriptors⟩

theorem eq_of_changed {α : Type} {change : α → α} (shows : ∀ item, change item ≠ item)
    {before before' behind behind' : List α} {item item' : α}
    (former : before ++ item :: behind = before' ++ item' :: behind')
    (latter : before ++ change item :: behind = before' ++ change item' :: behind') :
    item = item' := by
  induction before generalizing before' with
  | nil =>
      cases before' with
      | nil => exact (List.cons.inj former).1
      | cons first rest =>
          have here := (List.cons.inj former).1
          exact absurd ((List.cons.inj latter).1.trans here.symm) (shows item)
  | cons first rest ih =>
      cases before' with
      | nil =>
          have here := (List.cons.inj former).1
          exact absurd ((List.cons.inj latter).1.symm.trans here) (shows item')
      | cons first' rest' => exact ih (List.cons.inj former).2 (List.cons.inj latter).2

theorem unheld_of_lands {former latter : List Descriptor}
    (lands : Lands policy alarms resolved former home latter)
    (start : placement.descriptors = former)
    (done : (next policy alarms now placement resolved).descriptors = latter)
    (strange : home.holdsAny resolved.certificates now = false) :
    ∀ other ∈ former,
      other.accepts resolved.endpoint resolved.certificates policy.maxCertificates now = true →
        other.holdsAny resolved.certificates now = false := by
  intro other member accepted
  cases filled : resolved.certificates.isEmpty with
  | true =>
      have none : resolved.certificates.keys = [] := by
        rw [Table.keys, Table.isEmpty_iff.mp filled, List.map_nil]
      rw [Descriptor.holdsAny, none, List.any_nil]
  | false =>
      have shows (descriptor : Descriptor) :
          descriptor.add resolved.endpoint resolved.certificates ≠ descriptor :=
        descriptor.add_ne resolved.endpoint filled
      rcases @next_cases policy alarms now placement resolved with
        ⟨_, same⟩ | ⟨_, before, target, behind, whole, joins, same⟩ | ⟨_, spurned, _⟩
      · have still : latter = former := by rw [← done, same, start]
        cases lands with
        | joined before _ behind =>
            exact absurd (List.cons.inj (List.append_cancel_left still)).1 (shows home)
        | started => simp at still
      · have changed := done.symm.trans same
        cases lands with
        | joined before' _ behind' =>
            obtain rfl : home = target := eq_of_changed shows (start.symm.trans whole) changed
            rcases joins.preferred with ⟨held, _⟩ | ⟨spurned, unheld⟩
            · rw [strange] at held
              cases held
            · rw [← start, whole] at member
              rcases List.mem_append.mp member with early | late
              · rw [spurned other early] at accepted
                cases accepted
              · exact unheld other late accepted
        | started =>
            have lengths := congrArg List.length changed
            rw [← start, whole] at lengths
            simp at lengths
      · rw [spurned other (start ▸ member)] at accepted
        cases accepted

structure Thrifty (policy : PlacementPolicy) (listed : List Stack)
    (endpoints : List ResolvedEndpoint) (alarms : Option AlarmSet) (now : Instant) : Prop where
  /-- The first endpoint of a new load balancer finds no room in front of it, even in the end. -/
  started : ∀ front descriptor rear,
    (ofStacks policy listed endpoints alarms now).descriptors = front ++ descriptor :: rear →
      descriptor.existing = none → ∃ founder ∈ endpoints, ∃ others,
        descriptor.endpoints = founder.endpoint :: others ∧
        (∀ other ∈ others, compare founder.endpoint.id other.id = .lt) ∧
        Accommodates founder descriptor ∧
        ∀ prior ∈ front, prior.accepts founder.endpoint founder.certificates
          policy.maxCertificates now = false
  /-- Each endpoint that fits is placed when its turn comes. -/
  placed : ∀ earlier resolved later, byIdentity endpoints = earlier ++ resolved :: later →
    Fits policy resolved.certificates →
      ∃ home, Lands policy alarms resolved
        (placeAll policy alarms now (seeded listed alarms) earlier).descriptors home
        (placeAll policy alarms now (seeded listed alarms) (earlier ++ [resolved])).descriptors
  /-- It joins strangers only if all who would have it are strangers. -/
  strangers : ∀ earlier resolved later, byIdentity endpoints = earlier ++ resolved :: later →
    ∀ home, Lands policy alarms resolved
        (placeAll policy alarms now (seeded listed alarms) earlier).descriptors home
        (placeAll policy alarms now (seeded listed alarms) (earlier ++ [resolved])).descriptors →
      home.holdsAny resolved.certificates now = false →
      ∀ other ∈ (placeAll policy alarms now (seeded listed alarms) earlier).descriptors,
        other.accepts resolved.endpoint resolved.certificates policy.maxCertificates now = true →
          other.holdsAny resolved.certificates now = false

theorem endpoints_of_founds {placement : Placement} {endpoints : List ResolvedEndpoint}
    (distinct : (endpoints.map fun resolved => resolved.endpoint.id).Nodup)
    (accounts : Accounts endpoints placement) (member : descriptor ∈ placement.descriptors)
    (founds : Founds endpoints descriptor founder) :
    ∃ others, descriptor.endpoints = founder.endpoint :: others ∧
      ∀ other ∈ others, compare founder.endpoint.id other.id = .lt := by
  have listed := Descriptor.mem_endpoints_iff_serves fun first second =>
    serves_unique distinct accounts member
  have rising := descriptor.endpoints_increasing
  cases whole : descriptor.endpoints with
  | nil => exact nomatch whole ▸ (listed founder.endpoint).mpr founds.served
  | cons first others =>
      rw [whole] at rising listed
      have above := (List.pairwise_cons.mp rising).1
      -- The first of the listing has no smaller identity than the founder, and none is smaller.
      rcases founds.first first ((listed first).mp (.head _)) with rfl | below
      · exact ⟨others, rfl, above⟩
      · rcases List.mem_cons.mp ((listed founder.endpoint).mpr founds.served) with same | behind
        · exact ⟨others, by rw [same], same ▸ above⟩
        · exact absurd (above _ behind) (Std.OrientedCmp.not_lt_of_lt below)

/-- With distinct identities a placement starts no load balancer and joins no strangers needlessly. -/
theorem ofStacks_thrifty (policy : PlacementPolicy) (listed : List Stack)
    (endpoints : List ResolvedEndpoint) (alarms : Option AlarmSet) (now : Instant)
    (distinct : (endpoints.map fun resolved => resolved.endpoint.id).Nodup) :
    Thrifty policy listed endpoints alarms now where
  started := by
    intro front descriptor rear whole started
    have sorted := byIdentity_ids_nodup distinct
    have accounts : Accounts (byIdentity endpoints) (ofStacks policy listed endpoints alarms now) :=
      ofStacks_accounts distinct
    have founded : Founded policy now (byIdentity endpoints)
        (ofStacks policy listed endpoints alarms now).descriptors := by
      refine founded_placeAll (byIdentity_increasing distinct) fun seed member => ?_
      obtain ⟨observed, _, rfl⟩ := mem_seeded.mp member
      exact nofun
    have member : descriptor ∈ (ofStacks policy listed endpoints alarms now).descriptors := by
      rw [whole]
      exact List.mem_append_right _ (.head _)
    obtain ⟨founder, founds⟩ := founded.founder descriptor member started
    obtain ⟨others, listing, above⟩ := endpoints_of_founds sorted accounts member founds
    refine ⟨founder, mem_byIdentity.mp founds.member, others, listing, above, founds.accommodated,
      fun prior early => ?_⟩
    have needs := founded.needs
    rw [whole] at needs
    obtain ⟨other, founds', spurned⟩ :=
      (List.pairwise_append.mp needs).2.2 prior early descriptor (.head _) started
    rwa [founds_unique founds founds']
  placed := by
    intro earlier resolved later _ fits
    rw [placeAll_concat]
    exact exists_lands _ fits
  strangers := by
    intro earlier resolved later _ home lands
    rw [placeAll_concat] at lands
    exact unheld_of_lands lands rfl rfl

theorem mixed_thrifty : (mixed.map fun resolved => resolved.endpoint.id).Nodup ∧
    (ofStacks ⟨1, "plain"⟩ [] mixed none ⟨0, 0⟩).descriptors.length = 3 ∧
    Thrifty ⟨1, "plain"⟩ [] mixed none ⟨0, 0⟩ := by
  have distinct : (mixed.map fun resolved => resolved.endpoint.id).Nodup := by decide +kernel
  refine ⟨distinct, ?_, ofStacks_thrifty ⟨1, "plain"⟩ [] mixed none ⟨0, 0⟩ distinct⟩
  rw [ofStacks_eq_insertion]
  decide +kernel

end Placement

end IngressControl
