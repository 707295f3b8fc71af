import IngressControl.Proofs.Placement.Steps
/-!
Requests stay within the certificate limit.

A load balancer is measured against the limit each time an endpoint joins it, so one that serves
endpoints is never above it, also where an existing stack alone is.
-/

namespace IngressControl.Placement

variable {policy : PlacementPolicy} {alarms : Option AlarmSet} {now : Instant}

def WithinLimit (policy : PlacementPolicy) (now : Instant) (descriptor : Descriptor) : Prop :=
  descriptor.hasEndpoints = true → descriptor.certificateCount now ≤ policy.maxCertificates

theorem seed_withinLimit (observed : ObservedStack) :
    WithinLimit policy now (Descriptor.ofObserved observed alarms) := by
  intro filled
  have empty : (Descriptor.ofObserved observed alarms).hasEndpoints = false := rfl
  rw [empty] at filled
  contradiction

theorem joined_withinLimit {descriptor : Descriptor} {resolved : ResolvedEndpoint}
    (accepted : descriptor.accepts resolved.endpoint resolved.certificates policy.maxCertificates
      now = true) :
    WithinLimit policy now (descriptor.add resolved.endpoint resolved.certificates) := by
  intro _
  simp only [Descriptor.accepts, Bool.and_eq_true, decide_eq_true_eq] at accepted
  rw [Descriptor.certificateCount, Descriptor.occupied_add]
  exact accepted.2

theorem started_withinLimit {resolved : ResolvedEndpoint}
    (fits : Fits policy resolved.certificates) :
    WithinLimit policy now
      ((fresh policy resolved.endpoint alarms).add resolved.endpoint resolved.certificates) := by
  intro _
  rw [Descriptor.certificateCount,
    Descriptor.occupied_add_first (fresh_certificates ..) (fresh_existing ..)]
  exact fits.2

theorem ofStacks_withinLimit {listed : List Stack} {endpoints : List ResolvedEndpoint} :
    ∀ descriptor ∈ (ofStacks policy listed endpoints alarms now).descriptors,
      WithinLimit policy now descriptor := by
  apply descriptor_induction
  · intro descriptor seed
    obtain ⟨observed, _, rfl⟩ := mem_seeded.mp seed
    exact seed_withinLimit observed
  · intro descriptor resolved _ _ _ accepted
    exact joined_withinLimit accepted
  · intro resolved _ fits
    exact started_withinLimit fits

/-- The request for a load balancer with endpoints lists each certificate once: those that
endpoints use and those that the existing stack keeps until after `now`. It keeps the limit. -/
theorem requested_certificates_within_limit (policy : PlacementPolicy) (listed : List Stack)
    (endpoints : List ResolvedEndpoint) (alarms : Option AlarmSet) (now later : Instant)
    (grace : Span) (name : StackName) (cluster : String) (descriptor : Descriptor)
    (ends : now.plus? grace = some later)
    (placed : descriptor ∈ (ofStacks policy listed endpoints alarms now).descriptors)
    (filled : descriptor.hasEndpoints = true) :
    ∃ spec, descriptor.spec name cluster now grace = .ok spec ∧
      spec.certificates.Nodup ∧
      spec.certificates = (descriptor.occupied now).keys ∧
      (∀ id, id ∈ spec.certificates ↔ (∃ endpoint, descriptor.Enters id endpoint) ∨
        ∃ existing, descriptor.existing = some existing ∧
          ∃ removal, existing.certificates.get? id = some removal ∧
            ∀ moment, removal = some moment → now < moment) ∧
      spec.certificates.length = descriptor.certificateCount now ∧
      spec.certificates.length ≤ policy.maxCertificates := by
  obtain ⟨spec, requested, listing⟩ := descriptor.spec_certificates name cluster ends
  have counted : spec.certificates.length = descriptor.certificateCount now := by
    rw [listing, ← Table.size_eq_keys, Descriptor.certificateCount]
  refine ⟨spec, requested, ?_, listing, ?_, counted, ?_⟩
  · rw [listing]
    exact Table.keys_nodup _
  · intro id
    have used : descriptor.certificates.contains id = true ↔
        ∃ endpoint, descriptor.Enters id endpoint :=
      ⟨ofStacks_peopled descriptor placed id, fun ⟨_, entered⟩ =>
        Descriptor.enters_contains entered⟩
    rw [listing, Table.mem_keys_iff, Descriptor.contains_occupied, used, Descriptor.Keeps]
    simp [Option.all_eq_true]
  · rw [counted]
    exact ofStacks_withinLimit descriptor placed filled

def laden : Stack where
  name := "shop-1"
  status := .createComplete
  dnsName := none
  targetGroup := none
  createdAt := ⟨0, 0⟩
  tags := Table.ofList
    [(Tag.scheme, "internet-facing"), (Tag.sslPolicy, "strict"),
      (Tag.certificateStart ++ "kept", Tag.keepIndefinitely),
      (Tag.certificateStart ++ "leaving", "1970-01-01T01:00:00Z"),
      (Tag.certificateStart ++ "over", "1970-01-01T00:10:00Z")]

def visitor : ResolvedEndpoint where
  endpoint := { id := ⟨.ingress, "default", "web"⟩ }
  certificates := KeySet.ofList ["kept", "new"]

def ladenPlacement : Placement := ofStacks ⟨3, "strict"⟩ [laden] [visitor] none ⟨1800, 0⟩

def ladenBalancer : Descriptor := ladenPlacement.descriptors.head (by decide +kernel)

theorem laden_request_within_limit :
    ladenBalancer ∈ ladenPlacement.descriptors ∧ ladenBalancer.hasEndpoints = true ∧
      ∃ spec, ladenBalancer.spec "shop-1" "shop" ⟨1800, 0⟩ ⟨600000000000⟩ = .ok spec ∧
        spec.certificates.Nodup ∧
        spec.certificates = (ladenBalancer.occupied ⟨1800, 0⟩).keys ∧
        spec.certificates.length ≤ 3 := by
  have placed : ladenBalancer ∈ ladenPlacement.descriptors := List.head_mem _
  have filled : ladenBalancer.hasEndpoints = true := by decide +kernel
  obtain ⟨spec, requested, once, listing, _, _, limit⟩ :=
    requested_certificates_within_limit ⟨3, "strict"⟩ [laden] [visitor] none ⟨1800, 0⟩ ⟨2400, 0⟩
      ⟨600000000000⟩ "shop-1" "shop" ladenBalancer (by decide +kernel) placed filled
  exact ⟨placed, filled, spec, requested, once, listing, limit⟩

end IngressControl.Placement
