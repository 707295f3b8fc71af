import Mathlib.Data.List.Induction
import IngressControl.Placement
import IngressControl.Proofs.Descriptor.Occupancy
/-!
What placing one endpoint can do, and what holds along a whole placement.

An endpoint is refused for its certificates alone, joins one load balancer that accepts it, or
starts a new one because none does.
-/

namespace IngressControl.Placement

def next (policy : PlacementPolicy) (alarms : Option AlarmSet) (now : Instant)
    (placement : Placement) (resolved : ResolvedEndpoint) : Placement :=
  match place policy alarms now placement.descriptors resolved with
  | .ok descriptors => { placement with descriptors }
  | .error failure =>
      { placement with
        problems := placement.problems ++ [Problem.ofEndpoint resolved.endpoint.id.text failure] }

theorem placeAll_eq_foldl (policy : PlacementPolicy) (alarms : Option AlarmSet) (now : Instant)
    (placement : Placement) (endpoints : List ResolvedEndpoint) :
    placeAll policy alarms now placement endpoints
      = endpoints.foldl (next policy alarms now) placement := by
  induction endpoints generalizing placement with
  | nil => rfl
  | cons resolved rest ih =>
      rw [placeAll, List.foldl_cons, ← ih, next]
      cases placed : place policy alarms now placement.descriptors resolved with
      | ok descriptors => rfl
      | error failure => rfl

theorem placeAll_concat (policy : PlacementPolicy) (alarms : Option AlarmSet) (now : Instant)
    (placement : Placement) (earlier : List ResolvedEndpoint) (resolved : ResolvedEndpoint) :
    placeAll policy alarms now placement (earlier ++ [resolved])
      = next policy alarms now (placeAll policy alarms now placement earlier) resolved := by
  rw [placeAll_eq_foldl, placeAll_eq_foldl, List.foldl_append, List.foldl_cons, List.foldl_nil]

def Fits (policy : PlacementPolicy) (certificates : KeySet CertificateId) : Prop :=
  certificates.isEmpty = false ∧ certificates.size ≤ policy.maxCertificates

theorem refusal?_eq_none_iff {policy : PlacementPolicy} {certificates : KeySet CertificateId} :
    refusal? policy certificates = none ↔ Fits policy certificates := by
  rw [refusal?, Fits]
  by_cases unfilled : certificates.isEmpty = true
  · simp [unfilled]
  · by_cases excess : policy.maxCertificates < certificates.size
    · simp [unfilled, excess]
    · simp [unfilled, excess, Nat.not_lt.mp excess]

/-- An endpoint joins the load balancer between `before` and `behind`: it is accepted there, and
nothing in front is preferred. -/
structure Joins (policy : PlacementPolicy) (now : Instant) (resolved : ResolvedEndpoint)
    (before : List Descriptor) (target : Descriptor) (behind : List Descriptor) : Prop where
  accepted : target.accepts resolved.endpoint resolved.certificates policy.maxCertificates now
    = true
  preferred :
    (target.holdsAny resolved.certificates now = true ∧ ∀ other ∈ before,
      other.accepts resolved.endpoint resolved.certificates policy.maxCertificates now = true →
        other.holdsAny resolved.certificates now = false) ∨
    ((∀ other ∈ before,
      other.accepts resolved.endpoint resolved.certificates policy.maxCertificates now = false) ∧
      ∀ other ∈ target :: behind,
        other.accepts resolved.endpoint resolved.certificates policy.maxCertificates now = true →
          other.holdsAny resolved.certificates now = false)

theorem split_at_findIdx? {α : Type} {wanted : α → Bool} {items : List α} {position : Nat}
    (found : items.findIdx? wanted = some position) :
    ∃ before item behind, items = before ++ item :: behind ∧ before.length = position ∧
      wanted item = true ∧ ∀ other ∈ before, wanted other = false := by
  obtain ⟨inside, here, earlier⟩ := List.findIdx?_eq_some_iff_getElem.mp found
  refine ⟨items.take position, items[position], items.drop (position + 1), ?_, ?_, here, ?_⟩
  · rw [← List.drop_eq_getElem_cons inside, List.take_append_drop]
  · exact List.length_take_of_le (Nat.le_of_lt inside)
  · intro other member
    obtain ⟨index, below, rfl⟩ := List.mem_take_iff_getElem.mp member
    exact Bool.eq_false_iff.mpr (earlier index (by omega))

theorem target?_eq_none {policy : PlacementPolicy} {now : Instant} {descriptors : List Descriptor}
    {resolved : ResolvedEndpoint} (missing : target? policy descriptors resolved now = none) :
    ∀ descriptor ∈ descriptors, descriptor.accepts resolved.endpoint resolved.certificates
      policy.maxCertificates now = false := by
  simp only [target?, Option.orElse_eq_orElse, Option.orElse_eq_or, Option.or_eq_none_iff] at missing
  simpa using List.findIdx?_eq_none_iff.mp missing.2

theorem target?_eq_some {policy : PlacementPolicy} {now : Instant} {descriptors : List Descriptor}
    {resolved : ResolvedEndpoint} {position : Nat}
    (found : target? policy descriptors resolved now = some position) :
    ∃ before target behind, descriptors = before ++ target :: behind ∧ before.length = position ∧
      Joins policy now resolved before target behind := by
  simp only [target?, Option.orElse_eq_orElse, Option.orElse_eq_or, Option.or_eq_some_iff] at found
  rcases found with holding | ⟨unheld, accepting⟩
  · obtain ⟨before, target, behind, whole, length, here, earlier⟩ := split_at_findIdx? holding
    rw [Bool.and_eq_true] at here
    refine ⟨before, target, behind, whole, length, here.1, .inl ⟨here.2, ?_⟩⟩
    intro other member accepted
    simpa [accepted] using earlier other member
  -- The first that accepts; of those that accept none holds any of the certificates.
  · obtain ⟨before, target, behind, whole, length, here, earlier⟩ := split_at_findIdx? accepting
    refine ⟨before, target, behind, whole, length, here, .inr ⟨earlier, ?_⟩⟩
    intro other member accepted
    have spurned := List.findIdx?_eq_none_iff.mp unheld other
      (whole ▸ List.mem_append_right before member)
    simpa [accepted] using spurned

theorem place_cases {policy : PlacementPolicy} {alarms : Option AlarmSet} {now : Instant}
    {descriptors after : List Descriptor} {resolved : ResolvedEndpoint}
    (placed : place policy alarms now descriptors resolved = .ok after) :
    Fits policy resolved.certificates ∧
      ((∃ before target behind, descriptors = before ++ target :: behind ∧
          Joins policy now resolved before target behind ∧
          after = before ++ target.add resolved.endpoint resolved.certificates :: behind) ∨
        ((∀ descriptor ∈ descriptors, descriptor.accepts resolved.endpoint resolved.certificates
            policy.maxCertificates now = false) ∧
          after = descriptors ++ [(fresh policy resolved.endpoint alarms).add resolved.endpoint
            resolved.certificates])) := by
  rw [place] at placed
  cases refused : refusal? policy resolved.certificates with
  | some failure => simp [refused] at placed
  | none =>
      refine ⟨refusal?_eq_none_iff.mp refused, ?_⟩
      cases found : target? policy descriptors resolved now with
      | none =>
          simp only [refused, found, Except.ok.injEq] at placed
          exact .inr ⟨target?_eq_none found, placed.symm⟩
      | some position =>
          simp only [refused, found, Except.ok.injEq] at placed
          obtain ⟨before, target, behind, whole, length, joins⟩ := target?_eq_some found
          refine .inl ⟨before, target, behind, whole, joins, ?_⟩
          rw [← placed, whole, ← length, List.modify_eq_take_cons_drop (by simp)]
          simp

/-- What holds of the seeds and is kept by each endpoint holds of the whole placement. The
invariant may speak of the endpoints dealt with so far. -/
theorem placement_induction {policy : PlacementPolicy} {alarms : Option AlarmSet} {now : Instant}
    {seeds : Placement} (Holds : List ResolvedEndpoint → Placement → Prop)
    (endpoints : List ResolvedEndpoint) (start : Holds [] seeds)
    (step : ∀ earlier resolved placement, earlier ++ [resolved] <+: endpoints →
      Holds earlier placement →
        Holds (earlier ++ [resolved]) (next policy alarms now placement resolved)) :
    Holds endpoints (placeAll policy alarms now seeds endpoints) := by
  rw [placeAll_eq_foldl]
  induction endpoints using List.reverseRecOn with
  | nil => exact start
  | append_singleton earlier resolved ih =>
      rw [List.foldl_append]
      refine step earlier resolved _ (List.prefix_refl _) (ih fun prior other placement below => ?_)
      exact step prior other placement (below.trans (List.prefix_append _ _))

/-- What holds of every seed, is kept where an endpoint joins and holds where one starts a load
balancer, holds of all load balancers of the placement. -/
theorem descriptor_induction {policy : PlacementPolicy} {alarms : Option AlarmSet} {now : Instant}
    {Good : Descriptor → Prop} {seeds : Placement} {endpoints : List ResolvedEndpoint}
    (start : ∀ descriptor ∈ seeds.descriptors, Good descriptor)
    (joined : ∀ descriptor, ∀ resolved ∈ endpoints, Good descriptor →
      Fits policy resolved.certificates →
      descriptor.accepts resolved.endpoint resolved.certificates policy.maxCertificates now = true →
        Good (descriptor.add resolved.endpoint resolved.certificates))
    (started : ∀ resolved ∈ endpoints, Fits policy resolved.certificates →
      Good ((fresh policy resolved.endpoint alarms).add resolved.endpoint resolved.certificates)) :
    ∀ descriptor ∈ (placeAll policy alarms now seeds endpoints).descriptors, Good descriptor := by
  refine placement_induction (fun _ placement =>
    ∀ descriptor ∈ placement.descriptors, Good descriptor) endpoints start ?_
  intro earlier resolved placement below good
  have member : resolved ∈ endpoints := below.subset (by simp)
  rw [next]
  cases placed : place policy alarms now placement.descriptors resolved with
  | error failure => exact good
  | ok after =>
      obtain ⟨fits, ⟨before, target, behind, whole, joins, rfl⟩ | ⟨_, rfl⟩⟩ := place_cases placed
      · rw [whole] at good
        intro descriptor present
        rcases List.mem_append.mp present with early | late
        · exact good descriptor (List.mem_append_left _ early)
        · rcases List.mem_cons.mp late with rfl | late
          · exact joined target resolved member (good target (by simp)) fits joins.accepted
          · exact good descriptor (by simp [late])
      · intro descriptor present
        rcases List.mem_append.mp present with old | new
        · exact good descriptor old
        · rw [List.mem_singleton.mp new]
          exact started resolved member fits

@[simp] theorem fresh_certificates (policy : PlacementPolicy) (endpoint : Endpoint)
    (alarms : Option AlarmSet) : (fresh policy endpoint alarms).certificates = {} := by
  rw [fresh]
  cases endpoint.shared <;> rfl

@[simp] theorem fresh_existing (policy : PlacementPolicy) (endpoint : Endpoint)
    (alarms : Option AlarmSet) : (fresh policy endpoint alarms).existing = none := by
  rw [fresh]
  cases endpoint.shared <;> rfl

theorem mem_byName {observed : List ObservedStack} {stack : ObservedStack} :
    stack ∈ byName observed ↔ stack ∈ observed := by
  rw [byName]
  exact List.mem_mergeSort

theorem mem_byIdentity {endpoints : List ResolvedEndpoint} {resolved : ResolvedEndpoint} :
    resolved ∈ byIdentity endpoints ↔ resolved ∈ endpoints := by
  rw [byIdentity]
  exact List.mem_mergeSort

theorem mem_seeded {listed : List Stack} {alarms : Option AlarmSet} {descriptor : Descriptor} :
    descriptor ∈ (seeded listed alarms).descriptors ↔
      ∃ observed ∈ readable listed, Descriptor.ofObserved observed alarms = descriptor := by
  simp [seeded, mem_byName]

def Peopled (descriptor : Descriptor) : Prop :=
  ∀ id, descriptor.certificates.contains id = true → ∃ endpoint, descriptor.Enters id endpoint

theorem unused_peopled {descriptor : Descriptor} (unused : descriptor.certificates = {}) :
    Peopled descriptor := by
  intro id present
  rw [unused] at present
  contradiction

theorem add_peopled {descriptor : Descriptor} (peopled : Peopled descriptor)
    (endpoint : Endpoint) (certificates : KeySet CertificateId) :
    Peopled (descriptor.add endpoint certificates) := by
  intro id present
  rcases Descriptor.contains_enterAll.mp present with new | old
  · exact ⟨endpoint, Descriptor.enters_add.mpr (.inr ⟨Table.mem_keys_iff.mp new, rfl⟩)⟩
  · obtain ⟨user, entered⟩ := peopled id old
    exact ⟨user, Descriptor.enters_add.mpr (.inl entered)⟩

theorem ofStacks_peopled {policy : PlacementPolicy} {alarms : Option AlarmSet} {now : Instant}
    {listed : List Stack} {endpoints : List ResolvedEndpoint} :
    ∀ descriptor ∈ (ofStacks policy listed endpoints alarms now).descriptors,
      Peopled descriptor := by
  apply descriptor_induction
  · intro descriptor seed
    obtain ⟨observed, _, rfl⟩ := mem_seeded.mp seed
    exact unused_peopled rfl
  · intro descriptor resolved _ peopled _ _
    exact add_peopled peopled _ _
  · intro resolved _ _
    exact add_peopled (unused_peopled (fresh_certificates ..)) _ _

end IngressControl.Placement
