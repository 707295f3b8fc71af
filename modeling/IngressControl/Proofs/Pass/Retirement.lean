import IngressControl.Proofs.Pass.Reporting
/-!
How long a certificate stays on a stack.

The certificate tags of a stack change only by an update. One that does not use a certificate leaves
it with the removal time that it has, or gives it one at the end of the grace period, and takes it
away when its time has passed.
-/

namespace IngressControl

namespace Tags

/-- The time at which the tags want a certificate removed. A certificate that is kept has none. -/
def removal? (tags : Tags) (id : CertificateId) : Option Instant :=
  (tags.get? (Tag.certificateStart ++ id)).bind fun value =>
    (readRemoval (Tag.certificateStart ++ id) value).toOption.join

theorem removal?_eq_some {tags : Tags} {id : CertificateId} {removal : Instant} :
    tags.removal? id = some removal ↔ ∃ value, tags.get? (Tag.certificateStart ++ id) = some value ∧
      readRemoval (Tag.certificateStart ++ id) value = .ok (some removal) := by
  rw [removal?, Option.bind_eq_some_iff]
  refine exists_congr fun value => and_congr_right fun _ => ?_
  cases readRemoval (Tag.certificateStart ++ id) value with
  | error failure => simp [Except.toOption]
  | ok stated => simp [Except.toOption]

theorem removal?_congr {first second : Tags} (resembles : Cloud.Resembles first second)
    (id : CertificateId) : first.removal? id = second.removal? id := by
  rw [removal?, removal?, resembles _ (Tag.certificate_ne (by decide) id)]

end Tags

namespace Descriptor

variable {descriptor : Descriptor} {existing : ObservedStack} {name : StackName} {cluster : String}
  {now later : Instant} {grace : Span} {spec : StackSpec} {id : CertificateId}

theorem spec_certificate (ends : now.plus? grace = some later)
    (old : descriptor.existing = some existing)
    (requested : descriptor.spec name cluster now grace = .ok spec) (id : CertificateId) :
    spec.tags.get? (Tag.certificateStart ++ id)
      = (if descriptor.certificates.contains id then some none
          else (existing.certificates.get? id).bind (remaining now later)).map Tags.removalText := by
  obtain ⟨schedule, desired, looked⟩ := descriptor.desiredCertificates_get? ends
  obtain ⟨schedule', desired', same⟩ := Attempt.bind_eq_ok_iff.mp requested
  obtain rfl := Except.ok.inj (desired.symm.trans desired')
  cases same
  rw [get?_tagsFor_certificate, looked, old]
  rfl

/-- A removal time that a request states is the end of the grace period, or the one that the stack
states, written anew. -/
theorem removal?_of_spec (ends : now.plus? grace = some later) (plain : later.HasPlainYear)
    (old : descriptor.existing = some existing) (reflects : existing.Reflects existing.stack)
    (requested : descriptor.spec name cluster now grace = .ok spec) {removal : Instant}
    (stated : spec.tags.removal? id = some removal) :
    descriptor.certificates.contains id = false ∧ (later.stamped = removal ∨
      ∃ former, existing.stack.tags.removal? id = some former ∧
        (former.Storable → former = removal)) := by
  obtain ⟨value, tagged, read⟩ := Tags.removal?_eq_some.mp stated
  obtain ⟨distinct, timed⟩ := Tags.readRemoval_eq_some read
  rw [spec_certificate ends old requested] at tagged
  by_cases used : descriptor.certificates.contains id = true
  · rw [if_pos used] at tagged
    exact absurd (Option.some.inj tagged).symm distinct
  · rw [if_neg used] at tagged
    refine ⟨by simpa using used, ?_⟩
    obtain ⟨left, remains, same⟩ := Option.map_eq_some_iff.mp tagged
    obtain ⟨before, held, remains⟩ := Option.bind_eq_some_iff.mp remains
    cases before with
    | none =>
        obtain rfl := Option.some.inj remains
        rw [← same, Tags.removalText, Option.elim_some, Stamp.strict_secondText plain] at timed
        exact .inl (Except.ok.inj timed)
    | some former =>
        obtain ⟨text, tagged, read⟩ := Tags.certificates_stated reflects.certificates held
        refine .inr ⟨former, Tags.removal?_eq_some.mpr ⟨text, tagged, read⟩, fun storable => ?_⟩
        rw [remaining] at remains
        split at remains
        · obtain rfl := Option.some.inj remains
          rw [← same, Tags.removalText, Option.elim_some, Stamp.strict_secondText storable.plain,
            storable.stamped_eq] at timed
          exact Except.ok.inj timed
        · cases remains

theorem past_of_left_out (ends : now.plus? grace = some later)
    (old : descriptor.existing = some existing) (reflects : existing.Reflects existing.stack)
    (requested : descriptor.spec name cluster now grace = .ok spec)
    (tagged : existing.stack.tags.contains (Tag.certificateStart ++ id) = true)
    (left_out : spec.tags.get? (Tag.certificateStart ++ id) = none) :
    descriptor.certificates.contains id = false ∧
      ∃ removal, existing.stack.tags.removal? id = some removal ∧ removal ≤ now := by
  obtain ⟨value, tagged⟩ := Table.contains_iff.mp tagged
  obtain ⟨removal, read, held⟩ := Tags.certificates_get? reflects.certificates tagged
  rw [spec_certificate ends old requested, Option.map_eq_none_iff] at left_out
  by_cases used : descriptor.certificates.contains id = true
  · rw [if_pos used] at left_out
    cases left_out
  · rw [if_neg used, held, Option.bind_some] at left_out
    refine ⟨by simpa using used, ?_⟩
    cases removal with
    | none => cases left_out
    | some moment =>
        refine ⟨moment, Tags.removal?_eq_some.mpr ⟨value, tagged, read⟩, ?_⟩
        rw [remaining] at left_out
        split at left_out
        · cases left_out
        · rename_i passed
          exact Instant.not_lt.mp passed

theorem removal?_of_first (new : descriptor.existing = none)
    (requested : descriptor.spec name cluster now grace = .ok spec) (id : CertificateId) :
    spec.tags.removal? id = none := by
  obtain ⟨schedule, desired, same⟩ := Attempt.bind_eq_ok_iff.mp requested
  cases same
  rw [desiredCertificates, new] at desired
  obtain rfl := Except.ok.inj desired
  rw [Tags.removal?, get?_tagsFor_certificate, Table.get?_mapValues]
  cases descriptor.certificates.get? id <;> rfl

end Descriptor

def Placement.Uses (placement : Placement) (name : StackName) (id : CertificateId) : Prop :=
  ∃ descriptor ∈ placement.descriptors, descriptor.stackName? = some name ∧
    ∃ endpoint, descriptor.Enters id endpoint

namespace Controller

variable {controller : Controller} {circumstances : Circumstances} {world : World} {later : Instant}
  {name : StackName} {id : CertificateId}

theorem not_uses_of_unused {spec : StackSpec} {descriptor : Descriptor} {existing : ObservedStack}
    (updates : Updates controller circumstances world spec descriptor existing)
    (unused : descriptor.certificates.contains id = false) :
    ¬ (controller.pass circumstances world).placement.Uses spec.name id := by
  rintro ⟨other, placed, owned, endpoint, entered⟩
  obtain rfl := updates.unique other placed owned
  exact nomatch (Descriptor.enters_contains entered).symm.trans unused

/-- All that a pass can do about a removal time: it sets one at the end of the grace period, or leaves
the one that the stack has, whether it updates the stack or not. -/
theorem pass_removal? (named : world.cloud.Named)
    (ends : circumstances.now.plus? controller.grace = some later) (plain : later.HasPlainYear)
    {stack : Stack} {removal : Instant}
    (found : (controller.pass circumstances world).world.cloud.provisioned.get? name = some stack)
    (stated : stack.tags.removal? id = some removal) :
    (later.stamped = removal ∧
      (∃ spec, .update spec ∈ (controller.pass circumstances world).granted ∧ spec.name = name) ∧
      ¬ (controller.pass circumstances world).placement.Uses name id) ∨
    ∃ earlier former, world.cloud.provisioned.get? name = some earlier ∧
      earlier.tags.removal? id = some former ∧ (former.Storable → former = removal) ∧
      ∀ spec, .update spec ∈ (controller.pass circumstances world).granted → spec.name = name →
        spec.tags.removal? id = some removal ∧
          ¬ (controller.pass circumstances world).placement.Uses name id := by
  rcases pass_stack named found with ⟨_, spec, settles, created, _, rfl⟩ |
    ⟨earlier, present, _, ⟨spec, granted, called, resembles⟩ | ⟨untouched, resembles⟩⟩
  · obtain ⟨descriptor, _, new, requested⟩ := pass_create created
    exact nomatch stated.symm.trans (Descriptor.removal?_of_first new requested id)
  · rw [Tags.removal?_congr resembles] at stated
    obtain ⟨descriptor, existing, updates⟩ := pass_update named granted
    obtain ⟨unused, set | ⟨former, before, kept⟩⟩ := Descriptor.removal?_of_spec ends plain
      updates.old updates.reflects updates.requested stated
    · subst called
      exact .inl ⟨set, ⟨spec, granted, rfl⟩, not_uses_of_unused updates unused⟩
    · subst called
      refine .inr ⟨existing.stack, former, updates.found, before, kept, ?_⟩
      intro other granted' called'
      obtain ⟨_, _, updates'⟩ := pass_update named granted'
      rw [updates_unique updates updates' called']
      exact ⟨stated, not_uses_of_unused updates unused⟩
  · rw [Tags.removal?_congr resembles] at stated
    exact .inr ⟨earlier, removal, present, stated, fun _ => rfl,
      fun spec granted called => absurd called (untouched spec granted)⟩

/-- A certificate that a pass takes off a stack is not used there and past its removal time. -/
theorem pass_retires (named : world.cloud.Named)
    (ends : circumstances.now.plus? controller.grace = some later) {stack after : Stack}
    (present : world.cloud.provisioned.get? name = some stack)
    (tagged : stack.tags.contains (Tag.certificateStart ++ id) = true)
    (found : (controller.pass circumstances world).world.cloud.provisioned.get? name = some after)
    (gone : after.tags.contains (Tag.certificateStart ++ id) = false) :
    ¬ (controller.pass circumstances world).placement.Uses name id ∧
      ∃ removal, stack.tags.removal? id = some removal ∧ removal ≤ circumstances.now := by
  have other : Tag.certificateStart ++ id ≠ Tag.deletionScheduled :=
    Tag.certificate_ne (by decide) id
  have absent : after.tags.get? (Tag.certificateStart ++ id) = none := by
    simpa [Table.contains] using gone
  rcases pass_stack named found with ⟨missing, _⟩ |
    ⟨earlier, present', _, ⟨spec, granted, called, resembles⟩ | ⟨_, resembles⟩⟩
  · rw [present] at missing
    cases missing
  · obtain ⟨descriptor, existing, updates⟩ := pass_update named granted
    subst called
    obtain rfl : existing.stack = stack := Option.some.inj (updates.found.symm.trans present)
    rw [resembles _ other] at absent
    obtain ⟨unused, past⟩ := Descriptor.past_of_left_out ends updates.old updates.reflects
      updates.requested tagged absent
    exact ⟨not_uses_of_unused updates unused, past⟩
  · obtain rfl : earlier = stack := Option.some.inj (present'.symm.trans present)
    rw [resembles _ other] at absent
    rw [Table.contains, absent] at tagged
    cases tagged

end Controller

end IngressControl
