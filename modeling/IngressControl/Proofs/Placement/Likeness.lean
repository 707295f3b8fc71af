import IngressControl.Proofs.Pairs
import IngressControl.Proofs.Placement.Steps
/-!
What placement looks at.

It sees of a load balancer the attributes, whether endpoints may be placed there and which
certificates take a place; of an endpoint everything but the address reported for it. Load balancers
that are alike in this accept the same endpoints.
-/

namespace IngressControl

def Endpoint.unreported (endpoint : Endpoint) : Endpoint := { endpoint with statusAddress := none }

def ResolvedEndpoint.unreported (resolved : ResolvedEndpoint) : ResolvedEndpoint :=
  { resolved with endpoint := resolved.endpoint.unreported }

namespace Placement

variable {now : Instant}

/-- Placement cannot tell the two load balancers apart. -/
structure Alike (now : Instant) (first second : Descriptor) : Prop where
  key : first.key = second.key
  shared : first.shared = second.shared
  owner : first.owner = second.owner
  placeable : first.existing.all ObservedStack.isPlaceable
    = second.existing.all ObservedStack.isPlaceable
  occupied : first.occupied now = second.occupied now

theorem alike_refl (descriptor : Descriptor) : Alike now descriptor descriptor :=
  ⟨rfl, rfl, rfl, rfl, rfl⟩

theorem alike_symm {first second : Descriptor} (alike : Alike now first second) :
    Alike now second first :=
  ⟨alike.key.symm, alike.shared.symm, alike.owner.symm, alike.placeable.symm, alike.occupied.symm⟩

theorem accepts_congr {first second : Descriptor} (alike : Alike now first second)
    {resolved other : ResolvedEndpoint} (same : resolved.unreported = other.unreported)
    (limit : Nat) : first.accepts resolved.endpoint resolved.certificates limit now
      = second.accepts other.endpoint other.certificates limit now := by
  have seen (descriptor : Descriptor) (resolved : ResolvedEndpoint) :
      descriptor.accepts resolved.endpoint resolved.certificates limit now
        = descriptor.accepts resolved.unreported.endpoint resolved.unreported.certificates limit now :=
    rfl
  rw [seen first, seen second, same]
  simp only [Descriptor.accepts, Descriptor.belongs, alike.key, alike.shared, alike.owner,
    alike.placeable, alike.occupied]

theorem certificates_congr {resolved other : ResolvedEndpoint}
    (same : resolved.unreported = other.unreported) : resolved.certificates = other.certificates :=
  have seen : resolved.unreported.certificates = other.unreported.certificates := by rw [same]
  seen

theorem exists_counterpart {endpoints others : List ResolvedEndpoint}
    (same : endpoints.map ResolvedEndpoint.unreported = others.map ResolvedEndpoint.unreported)
    {resolved : ResolvedEndpoint} (member : resolved ∈ endpoints) :
    ∃ other ∈ others, resolved.unreported = other.unreported :=
  Pairs.exists_right (Pairs.map_eq_iff.mp same) member

end Placement

end IngressControl
