import IngressControl.Proofs.Pass.Stages
import IngressControl.Proofs.Placement.Stacks
/-!
Which stacks a pass removes, and where the deletion times that it leaves come from.

A stack goes only as an orphan, on the word of its own tags and status. A deletion time is set
only at the end of the grace period from now, and an update takes it back.
-/

namespace IngressControl

variable {policy : StackPolicy} {now : Instant} {placement : Placement}

namespace ObservedStack

theorem planOrphan_delete {orphan : ObservedStack} {grace : Span}
    (planned : orphan.planOrphan now grace = .ok .delete) :
    orphan.stack.status.isFailed = true ∨ ∃ due, orphan.deletionScheduledAt = some due ∧
      due ≤ now ∧ orphan.hasPendingCertificates now = false := by
  rw [planOrphan] at planned
  split at planned
  · cases planned
  · split at planned
    · rename_i failed
      exact .inl failed
    · cases scheduled : orphan.deletionScheduledAt with
      | none =>
          simp only [scheduled] at planned
          split at planned <;> cases planned
      | some due =>
          simp only [scheduled] at planned
          split at planned
          · rename_i ripe
            exact .inr ⟨due, rfl, ripe.1, by simpa using ripe.2⟩
          · cases planned

end ObservedStack

namespace Placement

theorem asks_spec {request : StackRequest} (asked : placement.Asks policy now request)
    {spec : StackSpec} (writes : request = .create spec ∨ request = .update spec) :
    ∃ descriptor ∈ placement.desired, ∃ name,
      descriptor.spec name policy.cluster now policy.grace = .ok spec := by
  rcases asked with ⟨descriptor, wanted, asks⟩ | ⟨orphan, _, asks⟩
  · cases asks with
    | create _ requested =>
        obtain same | same := writes
        · cases same
          exact ⟨descriptor, wanted, _, requested⟩
        · cases same
    | update _ _ requested =>
        obtain same | same := writes
        · cases same
        · cases same
          exact ⟨descriptor, wanted, _, requested⟩
  · cases asks with
    | schedule => obtain same | same := writes <;> cases same
    | delete => obtain same | same := writes <;> cases same

theorem asks_unscheduled {request : StackRequest} (asked : placement.Asks policy now request)
    {spec : StackSpec} (writes : request = .create spec ∨ request = .update spec) :
    spec.tags.get? Tag.deletionScheduled = none := by
  obtain ⟨_, _, _, requested⟩ := asks_spec asked writes
  exact Descriptor.spec_unscheduled requested

theorem asks_schedule {name : StackName} {moment : Instant}
    (asked : placement.Asks policy now (.scheduleDeletion name moment)) :
    now.plus? policy.grace = some moment := by
  rcases asked with ⟨descriptor, _, asks⟩ | ⟨orphan, _, asks⟩
  · cases asks
  · cases asks with
    | schedule planned => exact (ObservedStack.planOrphan_schedule planned).2.2

theorem asks_delete {name : StackName} (asked : placement.Asks policy now (.delete name)) :
    ∃ orphan ∈ placement.orphaned, orphan.name = name ∧
      orphan.planOrphan now policy.grace = .ok .delete := by
  rcases asked with ⟨descriptor, _, asks⟩ | ⟨orphan, orphaned, asks⟩
  · cases asks
  · cases asks with
    | delete planned => exact ⟨orphan, orphaned, rfl, planned⟩

theorem mem_orphaned {orphan : ObservedStack} (orphaned : orphan ∈ placement.orphaned) :
    ∃ descriptor ∈ placement.descriptors, descriptor.hasEndpoints = false ∧
      descriptor.existing = some orphan := by
  obtain ⟨descriptor, member, existing⟩ := List.mem_filterMap.mp orphaned
  obtain ⟨placed, unfilled⟩ := List.mem_filter.mp member
  exact ⟨descriptor, placed, by simpa using unfilled, existing⟩

theorem mem_orphaned_of_vacant {descriptor : Descriptor} {orphan : ObservedStack}
    (placed : descriptor ∈ placement.descriptors) (unfilled : descriptor.hasEndpoints = false)
    (existing : descriptor.existing = some orphan) : orphan ∈ placement.orphaned :=
  List.mem_filterMap.mpr
    ⟨descriptor, List.mem_filter.mpr ⟨placed, by rw [unfilled]; rfl⟩, existing⟩

end Placement

namespace Controller

variable {controller : Controller} {circumstances : Circumstances} {world : World}

theorem pass_named (named : world.cloud.Named) :
    (controller.pass circumstances world).world.cloud.Named := by
  rcases controller.pass_cases circumstances world with ⟨same, _⟩ | ⟨_, _, _, _, _, grounded⟩
  · rwa [same]
  · obtain ⟨cloud, performs, same⟩ := grounded.performed
    intro name stack found
    rw [same] at found
    exact Cloud.performs_named named performs name stack found

/-- A deletion time was set by this pass at the end of the grace period, or stood before and the
pass has not updated the stack. -/
theorem pass_mark {name : StackName} {value : String}
    (marked : (controller.pass circumstances world).world.cloud.mark name = some value) :
    (∃ moment, .scheduleDeletion name moment ∈ (controller.pass circumstances world).granted ∧
      circumstances.now.plus? controller.grace = some moment ∧ moment.secondText = value) ∨
    (world.cloud.mark name = some value ∧
      ∀ spec, .update spec ∈ (controller.pass circumstances world).granted → spec.name ≠ name) := by
  rcases controller.pass_cases circumstances world with ⟨same, idle, _⟩ | ⟨_, _, _, _, _, grounded⟩
  · rw [same] at marked
    rw [idle]
    exact .inr ⟨marked, nofun⟩
  · obtain ⟨cloud, performs, same⟩ := grounded.performed
    rw [Cloud.mark, same] at marked
    rcases Cloud.performs_mark performs (fun request member spec writes =>
        Placement.asks_unscheduled (grounded.asked request member) writes) marked with
      ⟨moment, member, written⟩ | kept
    · exact .inl ⟨moment, member, Placement.asks_schedule (grounded.asked _ member), written⟩
    · exact .inr kept

theorem pass_removal {name : StackName} {stack : Stack} (named : world.cloud.Named)
    (present : world.cloud.provisioned.get? name = some stack)
    (absent : (controller.pass circumstances world).world.cloud.provisioned.get? name = none) :
    (∀ descriptor ∈ (controller.pass circumstances world).placement.descriptors,
      descriptor.stackName? = some name → descriptor.endpoints = []) ∧
    ∃ orphan, ObservedStack.ofStack stack = .ok orphan ∧
      orphan.planOrphan circumstances.now controller.grace = .ok .delete := by
  rcases controller.pass_cases circumstances world with
    ⟨same, _⟩ | ⟨listed, resolved, alarms, listing, placing, grounded⟩
  · rw [same, present] at absent
    cases absent
  · obtain ⟨cloud, performs, same⟩ := grounded.performed
    rw [same] at absent
    have deletion := Cloud.performs_vanished performs present absent
    obtain ⟨orphan, orphaned, called, planned⟩ := Placement.asks_delete (grounded.asked _ deletion)
    obtain ⟨vacant, placed, unfilled, existing⟩ := Placement.mem_orphaned orphaned
    rw [placing] at placed ⊢
    obtain ⟨source, member, read⟩ := Placement.existing_readable placed existing
    have observed : orphan.stack = source := (ObservedStack.ofStack_eq_ok read).1
    have source_name : source.name = name := by rw [← observed]; exact called
    -- Stacks are stored under their names, so the orphan is the stack that goes.
    have same_stack : source = stack := by
      obtain ⟨key, found⟩ := Cloud.mem_listStacks listing member
      have key_name := named key source found
      rw [← key_name, source_name, present] at found
      exact (Option.some.inj found).symm
    subst same_stack
    refine ⟨?_, orphan, read, planned⟩
    intro descriptor here descriptor_name
    have vacant_name : vacant.stackName? = some name := by
      rw [Descriptor.stackName?, existing, Option.map_some, called]
    have distinct := Cloud.listStacks_names_nodup named listing
    have same := Placement.stackName_unique distinct here placed descriptor_name vacant_name
    rw [same]
    exact Descriptor.endpoints_eq_nil unfilled

end Controller

end IngressControl
