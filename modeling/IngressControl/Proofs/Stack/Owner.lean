import IngressControl.Proofs.Stack.Attributes
/-!
The identity of an endpoint as a text, and as the owner in the tags of a stack.

An identity is read back from its text just when its namespace is filled and holds no slash and its
name is filled; a text that can be read is the one that its identity is written as. A dedicated
load balancer is therefore known again by its owner for those identities and for no others.
-/

namespace IngressControl

namespace Tags

theorem owner_eq_ok_iff {tags : Tags} {id : EndpointId} :
    tags.owner = .ok (some id) ↔ tags.get? Tag.owner = some id.text ∧ id.Writable := by
  rw [Tags.owner]
  cases tags.get? Tag.owner with
  | none => simp
  | some value =>
      have read : EndpointId.ofText value = .ok id ↔ value = id.text ∧ id.Writable :=
        EndpointId.ofText_eq_ok_iff
      cases named : EndpointId.ofText value with
      | error reason => simpa [named] using read
      | ok other => simpa [named] using read

end Tags

namespace Descriptor

theorem get?_owner_spec {descriptor : Descriptor} {name : StackName} {cluster : String}
    {now : Instant} {grace : Span} {spec : StackSpec} {owner : EndpointId}
    (owned : descriptor.owner = some owner)
    (requested : descriptor.spec name cluster now grace = .ok spec) :
    spec.tags.get? Tag.owner = some owner.text := by
  obtain ⟨schedule, _, stated⟩ := Attempt.bind_eq_ok_iff.mp requested
  cases stated
  rw [get?_tagsFor _ _ _ (by decide), if_neg (by decide), if_pos rfl, owned, Option.map_some]

end Descriptor

namespace EndpointId

/-- The text of an identity names it just when its parts can be told apart, and no other text does.
So it is with the owner of a load balancer in the tags of its stack, and identities that can be
told apart have tags that differ. -/
theorem text_identifies :
    (∀ id : EndpointId, ofText id.text = .ok id ↔ id.Writable) ∧
      (∀ (text : String) (id : EndpointId), ofText text = .ok id → id.text = text) ∧
      (∀ (descriptor : Descriptor) (owner : EndpointId) (name : StackName) (cluster : String)
        (now : Instant) (grace : Span) (spec : StackSpec), descriptor.owner = some owner →
          descriptor.spec name cluster now grace = .ok spec →
          (spec.tags.owner = .ok (some owner) ↔ owner.Writable)) ∧
      (∀ (stack : Stack) (observed : ObservedStack), ObservedStack.ofStack stack = .ok observed →
        observed.shared = false → ∃ owner, observed.owner = some owner ∧ owner.Writable ∧
          stack.tags.get? Tag.owner = some owner.text) ∧
      ∀ (first second : EndpointId) (tags other : Tags), first.Writable → second.Writable →
        first ≠ second → (tags.setOwner (some first)).get? Tag.owner
          ≠ (other.setOwner (some second)).get? Tag.owner := by
  refine ⟨fun id => ofText_text_iff, fun text id read => (ofText_eq_ok_iff.mp read).1.symm,
    fun descriptor owner name cluster now grace spec owned requested => ?_,
    fun stack observed read dedicated => ?_,
    fun first second tags other writable writable' differ same => ?_⟩
  · have stated := Descriptor.get?_owner_spec owned requested
    exact Tags.owner_eq_ok_iff.trans (and_iff_right stated)
  · have reflects := ObservedStack.ofStack_eq_ok_iff.mp read
    obtain ⟨owner, owned⟩ := Option.isSome_iff_exists.mp (reflects.owned dedicated)
    have told := reflects.owner
    rw [owned] at told
    obtain ⟨stated, writable⟩ := Tags.owner_eq_ok_iff.mp told
    exact ⟨owner, owned, writable, stated⟩
  · rw [Tags.setOwner, Tags.setOwner, Tags.get?_put_self, Tags.get?_put_self] at same
    exact differ (text_injective writable writable' (Option.some.inj same))

/-- A slash in the name does no harm. In the namespace it makes the text that of another identity. -/
theorem slashed_identified :
    ofText (text ⟨.ingress, "shop", "a/b"⟩) = .ok ⟨.ingress, "shop", "a/b"⟩ ∧
      text ⟨.ingress, "shop/a", "b"⟩ = text ⟨.ingress, "shop", "a/b"⟩ ∧
      ofText (text ⟨.ingress, "shop/a", "b"⟩) ≠ .ok ⟨.ingress, "shop/a", "b"⟩ := by
  obtain ⟨names, _⟩ := text_identifies
  have slashed : ¬ Writable ⟨.ingress, "shop/a", "b"⟩ := fun writable =>
    absurd writable.space_clear (by decide)
  exact ⟨(names _).mpr ⟨by decide, by decide, by decide⟩, by decide, slashed ∘ (names _).mp⟩

end EndpointId

end IngressControl
