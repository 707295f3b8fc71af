import IngressControl.Proofs.Pass.Effect
import IngressControl.Proofs.Pass.Removal
/-!
What becomes of each stack in a pass.

A stack that stands after a pass was created by it, or stood before and has been updated at most.
An update is that of the one load balancer that has the stack, so all updates of a stack in one pass
say the same.
-/

namespace IngressControl

namespace Cloud

variable {cloud after start : Cloud} {createdAt : Instant} {request : StackRequest}
  {requests : List StackRequest}

theorem performs_created {name : StackName} {stack : Stack}
    (performs : Performs createdAt start requests cloud)
    (absent : start.provisioned.get? name = none)
    (creations : ∀ request ∈ requests, request.name = name → ∃ spec, request = .create spec)
    (found : cloud.provisioned.get? name = some stack) :
    ∃ spec settles, .create spec ∈ requests ∧ spec.name = name ∧
      stack = newStack settles createdAt spec := by
  induction performs generalizing stack with
  | none => exact nomatch found.symm.trans absent
  | @next requests middle after request performs granted ih =>
      by_cases same : name = request.name
      · subst same
        obtain ⟨spec, rfl⟩ := creations request (by simp) rfl
        obtain ⟨_, rfl⟩ := perform_create granted
        obtain rfl := Option.some.inj ((Table.get?_insert_self ..).symm.trans found)
        exact ⟨spec, _, by simp, rfl, rfl⟩
      · rw [perform_elsewhere granted same] at found
        obtain ⟨spec, settles, member, called, created⟩ :=
          ih (fun request member => creations request (List.mem_append_left _ member)) found
        exact ⟨spec, settles, List.mem_append_left _ member, called, created⟩

theorem performs_spares {name : StackName} {stack : Stack}
    (performs : Performs createdAt start requests cloud)
    (present : start.provisioned.get? name = some stack)
    (creations : ∀ request ∈ requests, request.name = name → ∃ spec, request = .create spec) :
    cloud.provisioned.get? name = some stack := by
  induction performs with
  | none => exact present
  | @next requests middle after request _ granted ih =>
      have kept := ih fun request member => creations request (List.mem_append_left _ member)
      by_cases same : name = request.name
      · -- The name is taken, so its creation is not granted.
        subst same
        obtain ⟨spec, rfl⟩ := creations request (by simp) rfl
        obtain ⟨absent, _⟩ := perform_create granted
        exact nomatch kept.symm.trans absent
      · rw [perform_elsewhere granted same, kept]

end Cloud

theorem Stack.address?_of_continues {earlier stack : Stack} {address : String}
    (continues : Cloud.Continues earlier stack) (complete : stack.status.isComplete = true)
    (addressed : earlier.address? = some address) : stack.address? = some address := by
  rw [address?] at addressed
  split at addressed
  · rwa [address?, if_pos complete, continues.dnsName]
  · cases addressed

namespace Placement

variable {policy : PlacementPolicy} {listed : List Stack} {endpoints : List ResolvedEndpoint}
  {alarms : Option AlarmSet} {now : Instant}

theorem asks_own {stackPolicy : StackPolicy} (distinct : (listed.map Stack.name).Nodup)
    {descriptor : Descriptor} {existing : ObservedStack}
    (placed : descriptor ∈ (ofStacks policy listed endpoints alarms now).descriptors)
    (filled : descriptor.hasEndpoints = true) (old : descriptor.existing = some existing)
    {request : StackRequest}
    (asked : (ofStacks policy listed endpoints alarms now).Asks stackPolicy now request)
    (named : request.name = existing.name) :
    (∃ spec, request = .create spec) ∨ ∃ spec, request = .update spec ∧
      descriptor.spec existing.name stackPolicy.cluster now stackPolicy.grace = .ok spec := by
  have called : descriptor.stackName? = some existing.name := by
    rw [Descriptor.stackName?, old]
    rfl
  rcases asked with ⟨other, wanted, asks⟩ | ⟨orphan, orphaned, asks⟩
  · cases asks with
    | create => exact .inl ⟨_, rfl⟩
    | @update _ own spec _ owned requested =>
        have own_name : own.name = existing.name := (Descriptor.spec_name requested).symm.trans named
        have called' : other.stackName? = some existing.name := by
          rw [Descriptor.stackName?, owned, Option.map_some, own_name]
        obtain rfl := stackName_unique distinct placed (List.mem_filter.mp wanted).1 called called'
        rw [own_name] at requested
        exact .inr ⟨spec, rfl, requested⟩
  · have orphan_name : orphan.name = existing.name := by
      cases asks <;> exact named
    obtain ⟨vacant, placed', unfilled, owned⟩ := mem_orphaned orphaned
    have called' : vacant.stackName? = some existing.name := by
      rw [Descriptor.stackName?, owned, Option.map_some, orphan_name]
    obtain rfl := stackName_unique distinct placed placed' called called'
    rw [filled] at unfilled
    cases unfilled

end Placement

namespace Controller

variable {controller : Controller} {circumstances : Circumstances} {world : World}

theorem found_of_listed {policy : PlacementPolicy} {listed : List Stack}
    {endpoints : List ResolvedEndpoint} {alarms : Option AlarmSet} {now : Instant}
    {cluster : String} {cloud : Cloud} (named : cloud.Named)
    (listing : cloud.listStacks cluster = .ok listed) {descriptor : Descriptor}
    {existing : ObservedStack}
    (placed : descriptor ∈ (Placement.ofStacks policy listed endpoints alarms now).descriptors)
    (old : descriptor.existing = some existing) :
    existing.Reflects existing.stack ∧ existing.stack.IsOf cluster ∧
      cloud.provisioned.get? existing.name = some existing.stack := by
  obtain ⟨source, member, read⟩ := Placement.existing_readable placed old
  have reflects := ObservedStack.ofStack_eq_ok_iff.mp read
  obtain rfl : existing.stack = source := reflects.stack_eq
  obtain ⟨key, found⟩ := Cloud.mem_listStacks listing member
  obtain rfl : existing.stack.name = key := named key _ found
  have listing := Cloud.permit_bind_eq_ok listing
  cases listing
  obtain ⟨_, ours⟩ := List.mem_filter.mp member
  refine ⟨reflects, ?_, found⟩
  simpa [Stack.IsOf] using ours

structure Updates (controller : Controller) (circumstances : Circumstances) (world : World)
    (spec : StackSpec) (descriptor : Descriptor) (existing : ObservedStack) : Prop where
  placed : descriptor ∈ (controller.pass circumstances world).placement.descriptors
  old : descriptor.existing = some existing
  name : existing.name = spec.name
  reflects : existing.Reflects existing.stack
  found : world.cloud.provisioned.get? spec.name = some existing.stack
  requested : descriptor.spec spec.name controller.settings.clusterId circumstances.now
    controller.grace = .ok spec
  unique : ∀ other ∈ (controller.pass circumstances world).placement.descriptors,
    other.stackName? = some spec.name → other = descriptor

theorem updates_of_asks (named : world.cloud.Named) {spec : StackSpec}
    (asked : (controller.pass circumstances world).placement.Asks
      (controller.stackPolicy circumstances.createdAt) circumstances.now (.update spec)) :
    ∃ descriptor existing, Updates controller circumstances world spec descriptor existing := by
  rcases asked with ⟨descriptor, wanted, asks⟩ | ⟨orphan, _, asks⟩
  · cases asks with
    | @update _ existing _ _ old requested =>
        have called : existing.name = spec.name := (Descriptor.spec_name requested).symm
        have placed := (List.mem_filter.mp wanted).1
        have placed' := placed
        rcases controller.pass_cases circumstances world with
          ⟨_, _, _, blank⟩ | ⟨listed, resolved, alarms, listing, placing, _⟩
        · rw [blank] at placed
          cases placed
        · rw [placing] at placed'
          obtain ⟨reflects, _, found⟩ := found_of_listed named listing placed' old
          rw [called] at requested found
          refine ⟨descriptor, existing, placed, old, called, reflects, found, requested, ?_⟩
          intro other member owned
          rw [placing] at member
          have own : descriptor.stackName? = some spec.name := by
            rw [Descriptor.stackName?, old, Option.map_some, called]
          have distinct := Cloud.listStacks_names_nodup named listing
          exact Placement.stackName_unique distinct member placed' owned own
  · cases asks

theorem pass_update (named : world.cloud.Named) {spec : StackSpec}
    (granted : .update spec ∈ (controller.pass circumstances world).granted) :
    ∃ descriptor existing, Updates controller circumstances world spec descriptor existing := by
  rcases controller.pass_cases circumstances world with ⟨_, idle, _⟩ | ⟨_, _, _, _, _, grounded⟩
  · rw [idle] at granted
    cases granted
  · exact updates_of_asks named (grounded.asked _ granted)

theorem updates_unique {first second : StackSpec} {descriptor other : Descriptor}
    {existing existing' : ObservedStack}
    (updates : Updates controller circumstances world first descriptor existing)
    (updates' : Updates controller circumstances world second other existing')
    (same : second.name = first.name) : second = first := by
  have owned : other.stackName? = some first.name := by
    rw [Descriptor.stackName?, updates'.old, Option.map_some, updates'.name, same]
  obtain rfl := updates.unique other updates'.placed owned
  have requested := updates'.requested
  rw [same, updates.requested] at requested
  exact (Except.ok.inj requested).symm

theorem pass_create {spec : StackSpec}
    (granted : .create spec ∈ (controller.pass circumstances world).granted) :
    ∃ descriptor ∈ (controller.pass circumstances world).placement.desired,
      descriptor.existing = none ∧ descriptor.spec spec.name controller.settings.clusterId
        circumstances.now controller.grace = .ok spec := by
  rcases controller.pass_cases circumstances world with
    ⟨_, idle, _⟩ | ⟨_, _, _, _, _, grounded⟩
  · rw [idle] at granted
    cases granted
  · rcases grounded.asked _ granted with ⟨descriptor, wanted, asks⟩ | ⟨orphan, _, asks⟩
    · cases asks with
      | @create fresh _ planned requested =>
          cases old : descriptor.existing with
          | none => exact ⟨descriptor, wanted, old, (Descriptor.spec_name requested).symm ▸ requested⟩
          | some existing => exact absurd planned (Descriptor.plan_ne_create old _ _)
    · cases asks

theorem pass_about (named : world.cloud.Named) {request : StackRequest}
    (granted : request ∈ (controller.pass circumstances world).granted) :
    (∃ spec, request = .create spec) ∨
      ∃ stack, world.cloud.provisioned.get? request.name = some stack ∧
        stack.IsOf controller.settings.clusterId := by
  rcases controller.pass_cases circumstances world with
    ⟨_, idle, _⟩ | ⟨listed, resolved, alarms, listing, placing, grounded⟩
  · rw [idle] at granted
    cases granted
  · have asked := grounded.asked _ granted
    rw [placing] at asked
    rcases asked with ⟨descriptor, wanted, asks⟩ | ⟨orphan, orphaned, asks⟩
    · cases asks with
      | create => exact .inl ⟨_, rfl⟩
      | @update _ existing spec _ old requested =>
          obtain ⟨_, ours, found⟩ := found_of_listed named listing (List.mem_filter.mp wanted).1 old
          have called : existing.name = spec.name := (Descriptor.spec_name requested).symm
          rw [called] at found
          exact .inr ⟨_, found, ours⟩
    · obtain ⟨vacant, placed, _, old⟩ := Placement.mem_orphaned orphaned
      obtain ⟨_, ours, found⟩ := found_of_listed named listing placed old
      cases asks <;> exact .inr ⟨_, found, ours⟩

theorem creates_of_absent (named : world.cloud.Named) {name : StackName}
    (absent : world.cloud.provisioned.get? name = none) {request : StackRequest}
    (granted : request ∈ (controller.pass circumstances world).granted)
    (called : request.name = name) : ∃ spec, request = .create spec := by
  rcases pass_about named granted with created | ⟨stack, found, _⟩
  · exact created
  · exact nomatch (called ▸ found).symm.trans absent

/-- A stack after a pass was created by it, or continues with the tags of an update or its own. -/
theorem pass_stack (named : world.cloud.Named) {name : StackName} {stack : Stack}
    (found : (controller.pass circumstances world).world.cloud.provisioned.get? name = some stack) :
    (world.cloud.provisioned.get? name = none ∧ ∃ spec settles,
      .create spec ∈ (controller.pass circumstances world).granted ∧ spec.name = name ∧
        stack = Cloud.newStack settles circumstances.createdAt spec) ∨
    ∃ earlier, world.cloud.provisioned.get? name = some earlier ∧ Cloud.Continues earlier stack ∧
      ((∃ spec, .update spec ∈ (controller.pass circumstances world).granted ∧ spec.name = name ∧
          Cloud.Resembles stack.tags spec.tags) ∨
        (∀ spec, .update spec ∈ (controller.pass circumstances world).granted → spec.name ≠ name) ∧
          Cloud.Resembles stack.tags earlier.tags) := by
  rcases controller.pass_stages circumstances world with
    ⟨same, idle, _⟩ | ⟨_, orchestrator, _, _, _, _, acts⟩
  · rw [same] at found
    rw [idle]
    exact .inr ⟨stack, found, ⟨rfl, rfl, rfl, rfl⟩, .inr ⟨nofun, fun _ _ => rfl⟩⟩
  · obtain ⟨work, founded, cleared, _, granted, cloud⟩ := founded_of_acts acts
    have creations (absent : world.cloud.provisioned.get? name = none) :
        ∀ request ∈ work.granted, request.name = name → ∃ spec, request = .create spec := by
      intro request member
      exact creates_of_absent named absent (granted ▸ member)
    rw [provisioned_of_acts cloud] at found
    rw [granted]
    cases present : world.cloud.provisioned.get? name with
    | none =>
        exact .inl ⟨rfl, Cloud.performs_created founded.performed present (creations present) found⟩
    | some earlier =>
        -- A stack whose deletion was granted would be gone.
        have undeleted : .delete name ∉ work.granted :=
          fun deleted => nomatch found.symm.trans (cleared name deleted)
        obtain ⟨later, found', kept⟩ := Cloud.performs_kept founded.performed present undeleted
        obtain rfl := Option.some.inj (found.symm.trans found')
        exact .inr ⟨earlier, rfl, kept⟩

end Controller

end IngressControl
