import IngressControl.Proofs.Placement.Growth
/-!
Endpoints that come home.

Among the load balancers an endpoint prefers the first one that accepts it and holds one of its
certificates. When every endpoint is welcome on the one that it prefers, placement puts it there
and takes no further place for it, so that those behind it prefer the same as before.
-/

namespace IngressControl

namespace Descriptor

def certificatesOf (descriptor : Descriptor) (endpoint : Endpoint) : KeySet CertificateId :=
  KeySet.ofList <| descriptor.certificates.keys.filter fun id =>
    endpoint ∈ (descriptor.certificates.get? id).getD []

theorem contains_certificatesOf {descriptor : Descriptor} {endpoint : Endpoint}
    {id : CertificateId} : (descriptor.certificatesOf endpoint).contains id = true ↔
      descriptor.Enters id endpoint := by
  rw [certificatesOf, KeySet.contains_ofList, List.mem_filter, Table.mem_keys_iff,
    decide_eq_true_eq]
  exact ⟨And.right, fun entered => ⟨enters_contains entered, entered⟩⟩

end Descriptor

namespace Placement

variable {policy : PlacementPolicy} {alarms : Option AlarmSet} {now : Instant}

def attracts (policy : PlacementPolicy) (now : Instant) (resolved : ResolvedEndpoint)
    (descriptor : Descriptor) : Bool :=
  descriptor.accepts resolved.endpoint resolved.certificates policy.maxCertificates now
    && descriptor.holdsAny resolved.certificates now

def preferred? (policy : PlacementPolicy) (now : Instant) (descriptors : List Descriptor)
    (resolved : ResolvedEndpoint) : Option Descriptor :=
  descriptors.find? (attracts policy now resolved)

/-- No load balancer attracts an endpoint that is on another one. -/
def Undisputed (policy : PlacementPolicy) (now : Instant) (placement : Placement) : Prop :=
  ∀ first ∈ placement.descriptors, ∀ second ∈ placement.descriptors,
    ∀ endpoint ∈ first.endpoints,
      attracts policy now ⟨endpoint, first.certificatesOf endpoint⟩ second = true → second = first

instance (policy : PlacementPolicy) (now : Instant) (placement : Placement) :
    Decidable (Undisputed policy now placement) :=
  inferInstanceAs <| Decidable <| ∀ first ∈ placement.descriptors,
    ∀ second ∈ placement.descriptors, ∀ endpoint ∈ first.endpoints,
      attracts policy now ⟨endpoint, first.certificatesOf endpoint⟩ second = true → second = first

theorem attracts_congr {first second : Descriptor} (alike : Alike now first second)
    {resolved other : ResolvedEndpoint} (same : resolved.unreported = other.unreported) :
    attracts policy now resolved first = attracts policy now other second := by
  rw [attracts, attracts, accepts_congr alike same, Descriptor.holdsAny, Descriptor.holdsAny,
    alike.occupied, certificates_congr same]

theorem attracts_of_hosts {descriptor : Descriptor} {resolved : ResolvedEndpoint}
    (hosts : Hosts policy now descriptor resolved) (fits : Fits policy resolved.certificates) :
    attracts policy now resolved descriptor = true := by
  obtain ⟨id, present⟩ := Table.isEmpty_eq_false_iff.mp fits.1
  have held : descriptor.holdsAny resolved.certificates now = true :=
    List.any_eq_true.mpr ⟨id, Table.mem_keys_iff.mpr present, hosts.covered id present⟩
  rw [attracts, accepts_of_hosts hosts, held]
  rfl

def Homed (policy : PlacementPolicy) (now : Instant) (seeds : List Descriptor)
    (endpoints : List ResolvedEndpoint) : Prop :=
  ∀ resolved ∈ endpoints, Fits policy resolved.certificates →
    ∃ home, preferred? policy now seeds resolved = some home ∧ Hosts policy now home resolved

/-- The load balancer is as it was, but for the endpoints dealt with so far that prefer it. -/
structure Regained (policy : PlacementPolicy) (now : Instant) (seeds : List Descriptor)
    (earlier : List ResolvedEndpoint) (seed descriptor : Descriptor) : Prop where
  existing : descriptor.existing = seed.existing
  alike : Alike now seed descriptor
  entered : ∀ id endpoint, descriptor.Enters id endpoint ↔
    ∃ resolved ∈ earlier, Fits policy resolved.certificates ∧
      preferred? policy now seeds resolved = some seed ∧ resolved.endpoint = endpoint ∧
      resolved.certificates.contains id = true

variable {seeds : List Descriptor} {earlier : List ResolvedEndpoint} {seed descriptor : Descriptor}
  {resolved : ResolvedEndpoint}

theorem regained_of_unused (unused : seed.certificates = {}) :
    Regained policy now seeds [] seed seed where
  existing := rfl
  alike := alike_refl seed
  entered := by
    intro id endpoint
    constructor
    · exact fun entered => absurd ⟨id, entered⟩ (Descriptor.not_serves_of_unused unused endpoint)
    · rintro ⟨_, member, _⟩
      cases member

theorem regained_elsewhere (regained : Regained policy now seeds earlier seed descriptor)
    (elsewhere : Fits policy resolved.certificates →
      preferred? policy now seeds resolved ≠ some seed) :
    Regained policy now seeds (earlier ++ [resolved]) seed descriptor where
  existing := regained.existing
  alike := regained.alike
  entered := by
    intro id endpoint
    rw [regained.entered]
    constructor
    · rintro ⟨prior, member, rest⟩
      exact ⟨prior, List.mem_append_left _ member, rest⟩
    · rintro ⟨prior, member, fits, prefers, rest⟩
      rcases List.mem_append.mp member with member | last
      · exact ⟨prior, member, fits, prefers, rest⟩
      · rw [List.mem_singleton.mp last] at fits prefers
        exact absurd prefers (elsewhere fits)

theorem alike_add {certificates : KeySet CertificateId} {endpoint : Endpoint}
    (alike : Alike now seed descriptor)
    (full : (descriptor.add endpoint certificates).occupied now = descriptor.occupied now) :
    Alike now seed (descriptor.add endpoint certificates) where
  key := alike.key
  shared := alike.shared
  owner := alike.owner
  placeable := alike.placeable
  occupied := alike.occupied.trans full.symm

theorem regained_add (regained : Regained policy now seeds earlier seed descriptor)
    (fits : Fits policy resolved.certificates)
    (prefers : preferred? policy now seeds resolved = some seed)
    (hosts : Hosts policy now seed resolved) :
    Regained policy now seeds (earlier ++ [resolved]) seed
      (descriptor.add resolved.endpoint resolved.certificates) where
  existing := regained.existing
  alike := by
    refine alike_add regained.alike ?_
    rw [Descriptor.occupied_add, ← regained.alike.occupied, KeySet.addAll_of_contained]
    exact fun id member => hosts.covered id (Table.mem_keys_iff.mp member)
  entered := by
    intro id endpoint
    rw [Descriptor.enters_add, regained.entered]
    constructor
    · rintro (⟨prior, member, rest⟩ | ⟨present, rfl⟩)
      · exact ⟨prior, List.mem_append_left _ member, rest⟩
      · exact ⟨resolved, by simp, fits, prefers, rfl, present⟩
    · rintro ⟨prior, member, fits', prefers', same, present⟩
      rcases List.mem_append.mp member with member | last
      · exact .inl ⟨prior, member, fits', prefers', same, present⟩
      · rw [List.mem_singleton.mp last] at same present
        exact .inr ⟨present, same.symm⟩

theorem preferred_of_joins {front rear before behind : List Descriptor} {target : Descriptor}
    (front_alike : List.Forall₂ (Alike now) front before) (alike : Alike now seed target)
    (rear_alike : List.Forall₂ (Alike now) rear behind)
    (joins : Joins policy now resolved before target behind)
    (exists_home : ∃ home, preferred? policy now (front ++ seed :: rear) resolved = some home) :
    preferred? policy now (front ++ seed :: rear) resolved = some seed := by
  have seen {former current : Descriptor} (alike : Alike now former current) :
      attracts policy now resolved former = attracts policy now resolved current :=
    attracts_congr alike rfl
  rcases joins.preferred with ⟨held, unheld⟩ | ⟨spurned, unheld⟩
  · refine List.find?_eq_some_iff_append.mpr ⟨?_, front, rear, rfl, fun other member => ?_⟩
    · rw [seen alike, attracts, joins.accepted, held]
      rfl
    · obtain ⟨current, present, alike⟩ := Pairs.exists_right front_alike member
      rw [seen alike, attracts]
      cases accepted : current.accepts resolved.endpoint resolved.certificates
          policy.maxCertificates now with
      | false => rfl
      | true => simp [unheld current present accepted]
  -- It joined the first that accepts it because none attracts it, which its home does.
  · obtain ⟨home, prefers⟩ := exists_home
    have attracted := List.find?_some prefers
    have pairs := List.rel_append front_alike (.cons alike rear_alike)
    obtain ⟨current, present, alike⟩ := Pairs.exists_right pairs (List.mem_of_find?_eq_some prefers)
    rw [seen alike, attracts, Bool.and_eq_true] at attracted
    obtain ⟨accepted, held⟩ := attracted
    rcases List.mem_append.mp present with early | late
    · exact nomatch (spurned current early).symm.trans accepted
    · exact nomatch (unheld current late accepted).symm.trans held

theorem regained_next {placement : Placement} (distinct : seeds.Nodup)
    (homed : Homed policy now seeds [resolved])
    (pairs : List.Forall₂ (Regained policy now seeds earlier) seeds placement.descriptors) :
    List.Forall₂ (Regained policy now seeds (earlier ++ [resolved])) seeds
      (next policy alarms now placement resolved).descriptors := by
  rcases next_cases placement resolved with
    ⟨unfit, same⟩ | ⟨fits, before, target, behind, whole, joins, same⟩ | ⟨fits, spurned, _⟩
  · rw [same]
    exact pairs.imp fun _ _ regained => regained_elsewhere regained fun fits => absurd fits unfit
  · obtain ⟨home, prefers, hosts⟩ := homed resolved (by simp) fits
    rw [whole] at pairs
    rw [same]
    obtain ⟨front, seed, rear, rfl, fronts, here, rears⟩ := Pairs.exists_split pairs
    have preferred := preferred_of_joins (fronts.imp fun _ _ => Regained.alike) here.alike
      (rears.imp fun _ _ => Regained.alike) joins ⟨home, prefers⟩
    obtain rfl : seed = home := Option.some.inj (preferred.symm.trans prefers)
    have leave {other descriptor : Descriptor} (member : other ∈ front ++ rear)
        (regained : Regained policy now (front ++ seed :: rear) earlier other descriptor) :
        Regained policy now (front ++ seed :: rear) (earlier ++ [resolved]) other descriptor := by
      refine regained_elsewhere regained fun _ prefers' => ?_
      obtain rfl : other = seed := Option.some.inj (prefers'.symm.trans prefers)
      exact (List.nodup_middle.mp distinct).notMem member
    exact List.rel_append
      (Pairs.imp_mem (fun _ member _ _ => leave (List.mem_append_left _ member)) fronts)
      (.cons (regained_add here fits prefers hosts)
        (Pairs.imp_mem (fun _ member _ _ => leave (List.mem_append_right _ member)) rears))
  · obtain ⟨home, prefers, hosts⟩ := homed resolved (by simp) fits
    obtain ⟨current, present, regained⟩ :=
      Pairs.exists_right pairs (List.mem_of_find?_eq_some prefers)
    have accepted := accepts_of_hosts hosts
    rw [accepts_congr regained.alike rfl, spurned current present] at accepted
    cases accepted

theorem exists_preferred {endpoints : List ResolvedEndpoint} (hosted : Hosted policy now endpoints seeds)
    (member : resolved ∈ endpoints) (fits : Fits policy resolved.certificates) :
    ∃ home, preferred? policy now seeds resolved = some home := by
  obtain ⟨host, present, hosts⟩ := hosted resolved member fits
  exact Option.isSome_iff_exists.mp <|
    List.find?_isSome.mpr ⟨host, present, attracts_of_hosts hosts fits⟩

theorem homed_concat (homed : Homed policy now seeds earlier)
    (last : Fits policy resolved.certificates →
      ∃ home, preferred? policy now seeds resolved = some home ∧ Hosts policy now home resolved) :
    Homed policy now seeds (earlier ++ [resolved]) := by
  intro other member
  rcases List.mem_append.mp member with before | here
  · exact homed other before
  · obtain rfl := List.mem_singleton.mp here
    exact last

def Advances (policy : PlacementPolicy) (now : Instant) (seeds : List Descriptor)
    (earlier : List ResolvedEndpoint) (descriptors : List Descriptor) : Prop :=
  room policy now descriptors < room policy now seeds ∨
    List.Forall₂ (Alike now) seeds descriptors ∧ Homed policy now seeds earlier

theorem advances_next {placement : Placement} (hosted : Hosted policy now [resolved] seeds)
    (hosted' : Hosted policy now [resolved] placement.descriptors)
    (advances : Advances policy now seeds earlier placement.descriptors) :
    Advances policy now seeds (earlier ++ [resolved])
      (next policy alarms now placement resolved).descriptors := by
  rcases next_cases placement resolved with
    ⟨unfit, same⟩ | ⟨fits, before, target, behind, whole, joins, same⟩ | ⟨fits, spurned, _⟩
  · rw [same]
    exact advances.imp_right fun ⟨alike, homed⟩ =>
      ⟨alike, homed_concat homed fun fits => absurd fits unfit⟩
  · rw [whole] at advances
    rw [same]
    rcases room_joined before behind joins.accepted with full | less
    · rcases advances with less | ⟨alike, homed⟩
      · refine .inl ?_
        simpa only [room, List.map_append, List.map_cons, full] using less
      · obtain ⟨front, seed, rear, rfl, fronts, here, rears⟩ := Pairs.exists_split alike
        have joined := alike_add here full
        have preferred := preferred_of_joins fronts here rears joins
          (exists_preferred hosted (.head _) fits)
        exact .inr ⟨List.rel_append fronts (.cons joined rears), homed_concat homed fun _ =>
          ⟨seed, preferred, hosts_congr (alike_symm joined) rfl (hosts_joined joins.accepted)⟩⟩
    · refine .inl (Nat.lt_of_lt_of_le less ?_)
      rcases advances with less | ⟨alike, _⟩
      · exact Nat.le_of_lt less
      · exact Nat.le_of_eq (room_of_alike policy alike)
  · exact absurd spurned (not_spurned hosted' (.head _) fits)

/-- As long as every endpoint is welcome somewhere, placement takes up room unless all are at home
already. -/
theorem homed_or_room_lt {start : Placement} {endpoints : List ResolvedEndpoint}
    (hosted : Hosted policy now endpoints start.descriptors) :
    Homed policy now start.descriptors endpoints ∨
      room policy now (placeAll policy alarms now start endpoints).descriptors
        < room policy now start.descriptors := by
  have all : Hosted policy now endpoints (placeAll policy alarms now start endpoints).descriptors ∧
      Advances policy now start.descriptors endpoints
        (placeAll policy alarms now start endpoints).descriptors := by
    apply placement_induction fun earlier placement =>
      Hosted policy now endpoints placement.descriptors ∧
        Advances policy now start.descriptors earlier placement.descriptors
    · refine ⟨hosted, .inr ⟨List.forall₂_same.mpr fun seed _ => alike_refl seed, ?_⟩⟩
      intro resolved member
      cases member
    · rintro earlier resolved placement below ⟨hosted', advances⟩
      have only {descriptors : List Descriptor} (hosted : Hosted policy now endpoints descriptors) :
          Hosted policy now [resolved] descriptors := by
        intro other member
        rw [List.mem_singleton.mp member]
        exact hosted resolved (below.subset (by simp))
      exact ⟨hosted_next hosted' resolved, advances_next (only hosted) (only hosted') advances⟩
  rcases all.2 with less | ⟨_, homed⟩
  · exact .inr less
  · exact .inl homed

theorem regained_placeAll {start : Placement} {endpoints : List ResolvedEndpoint}
    (distinct : start.descriptors.Nodup)
    (unused : ∀ seed ∈ start.descriptors, seed.certificates = {})
    (homed : Homed policy now start.descriptors endpoints) :
    List.Forall₂ (Regained policy now start.descriptors endpoints) start.descriptors
      (placeAll policy alarms now start endpoints).descriptors := by
  apply placement_induction fun earlier placement =>
    List.Forall₂ (Regained policy now start.descriptors earlier) start.descriptors
      placement.descriptors
  · exact List.forall₂_same.mpr fun seed member => regained_of_unused (unused seed member)
  · intro earlier resolved placement below pairs
    refine regained_next distinct (fun other member => ?_) pairs
    rw [List.mem_singleton.mp member]
    exact homed resolved (below.subset (by simp))

theorem settled_of_entered {start : Placement} {endpoints : List ResolvedEndpoint}
    (unused : ∀ seed ∈ start.descriptors, seed.certificates = {}) :
    ∀ descriptor ∈ (placeAll policy alarms now start endpoints).descriptors,
      ∀ id endpoint, descriptor.Enters id endpoint →
        ∃ resolved ∈ endpoints, resolved.endpoint = endpoint ∧ Fits policy resolved.certificates ∧
          resolved.certificates.contains id = true ∧ Settles policy now descriptor resolved := by
  apply descriptor_induction
  · intro seed member id endpoint entered
    exact absurd ⟨id, entered⟩ (Descriptor.not_serves_of_unused (unused seed member) endpoint)
  · intro descriptor resolved member settled fits accepted id endpoint entered
    have keeps {id : CertificateId} {endpoint : Endpoint} (old : descriptor.Enters id endpoint) :
        (descriptor.add resolved.endpoint resolved.certificates).Enters id endpoint :=
      Descriptor.enters_add.mpr (.inl old)
    rcases Descriptor.enters_add.mp entered with old | ⟨present, rfl⟩
    · obtain ⟨prior, member, same, fits, present, settles⟩ := settled id endpoint old
      exact ⟨prior, member, same, fits, present, hosts_add settles.toHosts accepted,
        fun id present => keeps (settles.entered id present)⟩
    · exact ⟨resolved, member, rfl, fits, present, hosts_joined accepted,
        fun id present => Descriptor.enters_add.mpr (.inr ⟨present, rfl⟩)⟩
  · intro resolved member fits id endpoint entered
    rcases Descriptor.enters_add.mp entered with old | ⟨present, rfl⟩
    · exact absurd ⟨id, old⟩ (Descriptor.not_serves_of_unused (fresh_certificates ..) endpoint)
    · exact ⟨resolved, member, rfl, fits, present, hosts_started fits,
        fun id present => Descriptor.enters_add.mpr (.inr ⟨present, rfl⟩)⟩

section Entrance

variable {owned owned' : ResolvedEndpoint → Prop} {endpoints others : List ResolvedEndpoint}
  {former latter : Descriptor}

/-- The endpoints that the load balancer is entered for are the ones that it owns. -/
def EnteredFor (owned : ResolvedEndpoint → Prop) (endpoints : List ResolvedEndpoint)
    (descriptor : Descriptor) : Prop :=
  ∀ id endpoint, descriptor.Enters id endpoint ↔ ∃ resolved ∈ endpoints, owned resolved ∧
    resolved.endpoint = endpoint ∧ resolved.certificates.contains id = true

theorem Regained.enteredFor
    (regained : Regained policy now seeds (byIdentity endpoints) seed descriptor) :
    EnteredFor (fun resolved => Fits policy resolved.certificates ∧
      preferred? policy now seeds resolved = some seed) endpoints descriptor := by
  intro id endpoint
  simp only [regained.entered, mem_byIdentity, and_assoc]

theorem enteredFor_of_settled {start : Placement} (placed : descriptor ∈
      (placeAll policy alarms now start (byIdentity endpoints)).descriptors)
    (unused : ∀ seed ∈ start.descriptors, seed.certificates = {}) :
    EnteredFor (fun resolved => Fits policy resolved.certificates ∧
      Settles policy now descriptor resolved) endpoints descriptor := by
  intro id endpoint
  constructor
  · intro entered
    obtain ⟨resolved, member, same, fits, present, settles⟩ :=
      settled_of_entered unused descriptor placed id endpoint entered
    exact ⟨resolved, mem_byIdentity.mp member, ⟨fits, settles⟩, same, present⟩
  · rintro ⟨resolved, _, ⟨_, settles⟩, rfl, present⟩
    exact settles.entered id present

theorem EnteredFor.again (entered : EnteredFor owned endpoints former)
    (entered' : EnteredFor owned' others latter)
    (same : endpoints.map ResolvedEndpoint.unreported = others.map ResolvedEndpoint.unreported)
    (kept : ∀ resolved ∈ endpoints, ∀ other ∈ others, resolved.unreported = other.unreported →
      owned resolved → owned' other) {id : CertificateId} {endpoint : Endpoint}
    (present : former.Enters id endpoint) :
    ∃ other, latter.Enters id other ∧ other.unreported = endpoint.unreported := by
  obtain ⟨resolved, member, owns, rfl, contained⟩ := (entered id endpoint).mp present
  obtain ⟨other, member', alike⟩ := exists_counterpart same member
  refine ⟨other.endpoint, (entered' id _).mpr ⟨other, member',
    kept resolved member other member' alike owns, rfl, certificates_congr alike ▸ contained⟩, ?_⟩
  exact congrArg ResolvedEndpoint.endpoint alike.symm

theorem EnteredFor.used_iff (entered : EnteredFor owned endpoints former)
    (entered' : EnteredFor owned' others latter) (peopled : Peopled former)
    (peopled' : Peopled latter)
    (same : endpoints.map ResolvedEndpoint.unreported = others.map ResolvedEndpoint.unreported)
    (agree : ∀ resolved ∈ endpoints, ∀ other ∈ others, resolved.unreported = other.unreported →
      (owned resolved ↔ owned' other)) (id : CertificateId) :
    latter.certificates.contains id = former.certificates.contains id := by
  rw [Bool.eq_iff_iff]
  constructor
  · intro used
    obtain ⟨user, present⟩ := peopled' id used
    obtain ⟨other, present', _⟩ := entered'.again entered same.symm
      (fun other member' resolved member alike =>
        (agree resolved member other member' alike.symm).mpr) present
    exact Descriptor.enters_contains present'
  · intro used
    obtain ⟨user, present⟩ := peopled id used
    obtain ⟨other, present', _⟩ := entered.again entered' same
      (fun resolved member other member' alike =>
        (agree resolved member other member' alike).mp) present
    exact Descriptor.enters_contains present'

end Entrance

theorem desired_nodup {listed : List Stack} {endpoints : List ResolvedEndpoint}
    (distinct : (endpoints.map fun resolved => resolved.endpoint.id).Nodup) :
    (ofStacks policy listed endpoints alarms now).desired.Nodup := by
  have accounts : Accounts (byIdentity endpoints) (ofStacks policy listed endpoints alarms now) :=
    ofStacks_accounts distinct
  refine (accounts.apart.filter _).imp_of_mem fun {first second} member _ apart same => ?_
  obtain ⟨placed, filled⟩ := List.mem_filter.mp member
  obtain ⟨id, used⟩ := Descriptor.hasEndpoints_iff.mp filled
  obtain ⟨endpoint, entered⟩ := ofStacks_peopled first placed id used
  exact apart endpoint endpoint ⟨id, entered⟩ (same ▸ ⟨id, entered⟩) rfl

/-- Without a dispute no load balancer attracts an endpoint but its own. -/
theorem eq_of_attracts {listed : List Stack} {endpoints : List ResolvedEndpoint}
    (distinct : (endpoints.map fun resolved => resolved.endpoint.id).Nodup)
    (undisputed : Undisputed policy now (ofStacks policy listed endpoints alarms now))
    {own other : Descriptor}
    (placed : own ∈ (ofStacks policy listed endpoints alarms now).descriptors)
    (placed' : other ∈ (ofStacks policy listed endpoints alarms now).descriptors)
    (member : resolved ∈ endpoints) (fits : Fits policy resolved.certificates)
    (settles : Settles policy now own resolved)
    (attracted : attracts policy now resolved other = true) : other = own := by
  have sorted := byIdentity_ids_nodup distinct
  have accounts : Accounts (byIdentity endpoints) (ofStacks policy listed endpoints alarms now) :=
    ofStacks_accounts distinct
  obtain ⟨id, present⟩ := Table.isEmpty_eq_false_iff.mp fits.1
  have served : own.Serves resolved.endpoint := ⟨id, settles.entered id present⟩
  have listed : resolved.endpoint ∈ own.endpoints :=
    (Descriptor.mem_endpoints_iff_serves (fun _ _ => serves_unique sorted accounts placed)
      resolved.endpoint).mpr served
  have certificates : own.certificatesOf resolved.endpoint = resolved.certificates := by
    obtain ⟨known, member', same, accommodates⟩ := accounts.known own placed _ served
    obtain rfl : known = resolved := List.inj_on_of_nodup_map sorted member'
      (mem_byIdentity.mpr member) (congrArg Endpoint.id same)
    exact KeySet.eq_of_contains fun id =>
      Descriptor.contains_certificatesOf.trans (accommodates id)
  refine undisputed own placed other placed' resolved.endpoint listed ?_
  rw [certificates]
  exact attracted

end Placement

end IngressControl
