import IngressControl.Plan
import IngressControl.Proofs.Placement.History
/-!
Endpoints end up only where they may be.

Whether a load balancer suits an endpoint depends on its attributes and its stack, which placement
never changes; so it is enough that the endpoint was accepted, or that the load balancer was
started for it. That no two load balancers share an endpoint needs distinct identities.
-/

namespace IngressControl.Placement

variable {policy : PlacementPolicy} {alarms : Option AlarmSet} {now : Instant}

structure Suits (descriptor : Descriptor) (endpoint : Endpoint) : Prop where
  admitted : descriptor.key.admits endpoint = true
  belonging : descriptor.belongs endpoint = true
  placeable : descriptor.existing.all ObservedStack.isPlaceable = true

theorem suits_of_accepts {descriptor : Descriptor} {endpoint : Endpoint}
    {certificates : KeySet CertificateId} {limit : Nat}
    (accepted : descriptor.accepts endpoint certificates limit now = true) :
    Suits descriptor endpoint := by
  simp only [Descriptor.accepts, Bool.and_eq_true] at accepted
  obtain ⟨⟨⟨belonging, admitted⟩, placeable⟩, _⟩ := accepted
  exact ⟨admitted, belonging, placeable⟩

theorem suits_fresh (policy : PlacementPolicy) (endpoint : Endpoint) (alarms : Option AlarmSet) :
    Suits (fresh policy endpoint alarms) endpoint := by
  have admitted : (CompatibilityKey.ofEndpoint endpoint policy.defaultSslPolicy).admits endpoint
      = true := by
    cases asked : endpoint.sslPolicy <;>
      simp [CompatibilityKey.admits, CompatibilityKey.ofEndpoint, Endpoint.policyOr, asked]
  cases shared : endpoint.shared with
  | true =>
      refine ⟨?_, ?_, ?_⟩ <;>
        simp [fresh, shared, Descriptor.ofShared, Descriptor.belongs, admitted]
  | false =>
      refine ⟨?_, ?_, ?_⟩ <;>
        simp [fresh, shared, Descriptor.dedicated, Descriptor.belongs, admitted]

theorem suits_add {descriptor : Descriptor} {endpoint added : Endpoint}
    {certificates : KeySet CertificateId} (suits : Suits descriptor endpoint) :
    Suits (descriptor.add added certificates) endpoint :=
  ⟨suits.admitted, suits.belonging, suits.placeable⟩

theorem ofStacks_suits {listed : List Stack} {endpoints : List ResolvedEndpoint} :
    ∀ descriptor ∈ (ofStacks policy listed endpoints alarms now).descriptors,
      ∀ endpoint, descriptor.Serves endpoint → Suits descriptor endpoint := by
  apply descriptor_induction
  · intro descriptor seed endpoint served
    obtain ⟨observed, _, rfl⟩ := mem_seeded.mp seed
    exact absurd served (Descriptor.not_serves_of_unused rfl endpoint)
  · intro descriptor resolved _ suited _ accepted endpoint served
    rcases Descriptor.serves_add served with old | rfl
    · exact suits_add (suited endpoint old)
    · exact suits_add (suits_of_accepts accepted)
  · intro resolved _ _ endpoint served
    rcases Descriptor.serves_add served with old | rfl
    · exact absurd old (Descriptor.not_serves_of_unused (fresh_certificates ..) endpoint)
    · exact suits_add (suits_fresh policy resolved.endpoint alarms)

theorem filter_length_le_one {α : Type} {wanted : α → Bool} {items : List α}
    (exclusive : items.Pairwise fun first second => ¬ (wanted first = true ∧ wanted second = true)) :
    (items.filter wanted).length ≤ 1 := by
  have kept := exclusive.filter wanted
  cases chosen : items.filter wanted with
  | nil => simp
  | cons first rest =>
      cases rest with
      | nil => simp
      | cons second rest =>
          rw [chosen] at kept
          have both (item : α) (member : item ∈ first :: second :: rest) : wanted item = true :=
            (List.mem_filter.mp (chosen ▸ member)).2
          have clash := (List.pairwise_cons.mp kept).1 second (by simp)
          exact absurd ⟨both first (by simp), both second (by simp)⟩ clash

theorem filter_eq_singleton {α : Type} {wanted : α → Bool} {items : List α} {item : α}
    (exclusive : items.Pairwise fun first second => ¬ (wanted first = true ∧ wanted second = true))
    (member : item ∈ items) (chosen : wanted item = true) : items.filter wanted = [item] := by
  have inside : item ∈ items.filter wanted := List.mem_filter.mpr ⟨member, chosen⟩
  have only : (items.filter wanted).length = 1 :=
    Nat.le_antisymm (filter_length_le_one exclusive) (List.length_pos_of_mem inside)
  obtain ⟨other, alone⟩ := List.length_eq_one_iff.mp only
  rw [alone] at inside ⊢
  rw [List.mem_singleton.mp inside]

theorem endpoints_length_le_one {descriptor : Descriptor} {owner : EndpointId}
    (owned : ∀ endpoint ∈ descriptor.endpoints, endpoint.id = owner) :
    descriptor.endpoints.length ≤ 1 := by
  have once := descriptor.endpoints_ids_nodup
  cases listing : descriptor.endpoints with
  | nil => simp
  | cons first rest =>
      cases rest with
      | nil => simp
      | cons second rest =>
          rw [listing] at once owned
          have same : first.id = second.id :=
            (owned first (by simp)).trans (owned second (by simp)).symm
          simp [same] at once

/-- The endpoint agrees with the key; on the policy only if it asks for one. -/
structure Agrees (key : CompatibilityKey) (endpoint : Endpoint) : Prop where
  scheme : endpoint.scheme = key.scheme
  securityGroup : endpoint.securityGroup = key.securityGroup
  loadBalancerType : endpoint.loadBalancerType = key.loadBalancerType
  addressFamily : endpoint.addressFamily = key.addressFamily
  http2 : endpoint.http2 = key.http2
  webAcl : endpoint.webAcl = key.webAcl
  sslPolicy : ∀ policy, endpoint.sslPolicy = some policy → policy = key.sslPolicy

theorem agrees_of_admits {key : CompatibilityKey} {endpoint : Endpoint}
    (admitted : key.admits endpoint = true) : Agrees key endpoint := by
  simp only [CompatibilityKey.admits, Bool.and_eq_true, decide_eq_true_eq, Option.all_eq_true]
    at admitted
  obtain ⟨⟨⟨⟨⟨⟨policy, scheme⟩, group⟩, type⟩, family⟩, http2⟩, webAcl⟩ := admitted
  exact ⟨scheme.symm, group.symm, type.symm, family.symm, http2.symm, webAcl.symm, policy⟩

structure Sound (placement : Placement) : Prop where
  once : ∀ id, (placement.descriptors.filter fun descriptor =>
    descriptor.endpoints.any fun endpoint => endpoint.id = id).length ≤ 1
  agrees : ∀ descriptor ∈ placement.descriptors, ∀ endpoint ∈ descriptor.endpoints,
    Agrees descriptor.key endpoint
  together : ∀ descriptor ∈ placement.descriptors, ∀ endpoint ∈ descriptor.endpoints,
    endpoint.shared = true → descriptor.shared = true
  alone : ∀ descriptor ∈ placement.descriptors, descriptor.shared = false →
    descriptor.endpoints.length ≤ 1 ∧ ∀ endpoint ∈ descriptor.endpoints,
      endpoint.shared = false ∧ descriptor.owner = some endpoint.id
  healthy : ∀ descriptor ∈ placement.descriptors, ∀ existing,
    descriptor.existing = some existing → descriptor.endpoints ≠ [] →
      existing.stack.status.isFailed = false ∧ existing.stack.status.isDeleting = false
  unfailing : ∀ descriptor ∈ placement.desired, ∀ now grace,
    descriptor.plan now grace ≠ .ok .failed

theorem once_of_apart {placement : Placement} (apart : placement.descriptors.Pairwise Apart)
    (id : EndpointId) : (placement.descriptors.filter fun descriptor =>
      descriptor.endpoints.any fun endpoint => endpoint.id = id).length ≤ 1 := by
  apply filter_length_le_one
  refine apart.imp ?_
  rintro first second separate ⟨here, there⟩
  simp only [List.any_eq_true, decide_eq_true_eq] at here there
  obtain ⟨endpoint, member, rfl⟩ := here
  obtain ⟨other, member', same⟩ := there
  exact separate endpoint other (Descriptor.serves_of_mem_endpoints member)
    (Descriptor.serves_of_mem_endpoints member') same.symm

theorem plan_ne_failed {descriptor : Descriptor}
    (placeable : descriptor.existing.all ObservedStack.isPlaceable = true) (now : Instant)
    (grace : Span) : descriptor.plan now grace ≠ .ok .failed := by
  rw [Descriptor.plan]
  cases found : descriptor.existing with
  | none => simp
  | some existing =>
      have sane : existing.stack.status.isFailed = false ∧
          existing.stack.status.isDeleting = false := by
        simpa [found, ObservedStack.isPlaceable] using placeable
      simp only [sane.1, Bool.false_eq_true, ↓reduceIte]
      split
      · simp
      · cases descriptor.drift now grace with
        | error overflow => simp [Except.map]
        | ok drift => cases drift <;> simp [Except.map]

/-- Placement is sound for every set of stacks and all endpoints of distinct identities. -/
theorem ofStacks_sound (policy : PlacementPolicy) (listed : List Stack)
    (endpoints : List ResolvedEndpoint) (alarms : Option AlarmSet) (now : Instant)
    (distinct : (endpoints.map fun resolved => resolved.endpoint.id).Nodup) :
    Sound (ofStacks policy listed endpoints alarms now) := by
  have suits {descriptor : Descriptor} {endpoint : Endpoint}
      (placed : descriptor ∈ (ofStacks policy listed endpoints alarms now).descriptors)
      (member : endpoint ∈ descriptor.endpoints) : Suits descriptor endpoint :=
    ofStacks_suits descriptor placed endpoint (Descriptor.serves_of_mem_endpoints member)
  refine ⟨?_, ?_, ?_, ?_, ?_, ?_⟩
  · exact once_of_apart (ofStacks_accounts distinct).apart
  · intro descriptor placed endpoint member
    exact agrees_of_admits (suits placed member).admitted
  · intro descriptor placed endpoint member shared
    simpa [Descriptor.belongs, shared] using (suits placed member).belonging
  · intro descriptor placed dedicated
    have owned (endpoint : Endpoint) (member : endpoint ∈ descriptor.endpoints) :
        endpoint.shared = false ∧ descriptor.owner = some endpoint.id := by
      have belonging := (suits placed member).belonging
      cases shared : endpoint.shared with
      | true => simp [Descriptor.belongs, shared, dedicated] at belonging
      | false => exact ⟨rfl, by simpa [Descriptor.belongs, shared, dedicated] using belonging⟩
    -- All endpoints have the identity of the owner, and no identity is listed twice.
    refine ⟨?_, owned⟩
    cases owner : descriptor.owner with
    | none =>
        have unfilled : descriptor.endpoints = [] := List.eq_nil_iff_forall_not_mem.mpr
          fun endpoint member => by simpa [owner] using (owned endpoint member).2
        simp [unfilled]
    | some id =>
        have ids : ∀ endpoint ∈ descriptor.endpoints, endpoint.id = id := by
          intro endpoint member
          simpa [owner, eq_comm] using (owned endpoint member).2
        exact endpoints_length_le_one ids
  · intro descriptor placed existing found filled
    obtain ⟨endpoint, member⟩ := List.exists_mem_of_ne_nil _ filled
    simpa [found, ObservedStack.isPlaceable] using (suits placed member).placeable
  · intro descriptor wanted
    obtain ⟨placed, filled⟩ := List.mem_filter.mp wanted
    obtain ⟨id, present⟩ := Descriptor.hasEndpoints_iff.mp filled
    obtain ⟨endpoint, entered⟩ := ofStacks_peopled descriptor placed id present
    exact plan_ne_failed (ofStacks_suits descriptor placed endpoint ⟨id, entered⟩).placeable

def mixed : List ResolvedEndpoint :=
  [⟨{ id := ⟨.ingress, "default", "web"⟩, sslPolicy := some "strict" }, KeySet.ofList ["a"]⟩,
    ⟨{ id := ⟨.routeGroup, "default", "web"⟩ }, KeySet.ofList ["b"]⟩,
    ⟨{ id := ⟨.ingress, "default", "api"⟩, shared := false }, KeySet.ofList ["a"]⟩]

theorem mixed_sound : (mixed.map fun resolved => resolved.endpoint.id).Nodup ∧
    Sound (ofStacks ⟨2, "plain"⟩ [] mixed none ⟨0, 0⟩) :=
  ⟨by decide +kernel, ofStacks_sound ⟨2, "plain"⟩ [] mixed none ⟨0, 0⟩ (by decide +kernel)⟩

end IngressControl.Placement
