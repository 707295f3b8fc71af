import IngressControl.Proofs.Descriptor.Recall
import IngressControl.Proofs.Pass.Reporting
import IngressControl.Proofs.Pass.Upkeep
/-!
What a pass leaves on stacks can be read by the next one.

The tags of a stack are written anew by an update and amended by a scheduled deletion, so a property
of stacks is kept by every request when the requests write it and a deletion time does not end it.
This is so for removal times with years of four digits, and, where the endpoints can be recorded,
for stacks that can be read, have an owner just when they are not shared, and keep a certificate.
-/

namespace IngressControl

structure StackRequest.Leaves (Good : Stack → Prop) (request : StackRequest) : Prop where
  written : ∀ spec, request = .create spec ∨ request = .update spec →
    ∀ stack : Stack, stack.tags = spec.tags → Good stack
  scheduled : ∀ name moment, request = .scheduleDeletion name moment →
    ∀ stack, Good stack → Good (stack.schedule moment)

namespace Cloud

def Everywhere (Good : Stack → Prop) (cloud : Cloud) : Prop :=
  ∀ name stack, cloud.provisioned.get? name = some stack → Good stack

variable {Good : Stack → Prop} {cloud after start : Cloud} {createdAt : Instant}
  {request : StackRequest} {requests : List StackRequest}

theorem everywhere_of_empty (empty : cloud.provisioned = {}) : cloud.Everywhere Good := by
  intro name stack found
  rw [empty] at found
  cases found

theorem perform_everywhere (leaves : request.Leaves Good) (good : cloud.Everywhere Good)
    (granted : cloud.perform createdAt request = .ok after) : after.Everywhere Good :=
  perform_pointwise good (fun spec same => leaves.written spec (.inl same) _ rfl)
    (fun spec _ same _ => leaves.written spec (.inr same) _ rfl)
    (fun name moment stack same before => leaves.scheduled name moment same stack before) granted

theorem performs_everywhere (leaves : ∀ request ∈ requests, request.Leaves Good)
    (good : start.Everywhere Good) (performs : Performs createdAt start requests cloud) :
    cloud.Everywhere Good := by
  induction performs with
  | none => exact good
  | next _ granted ih =>
      have before := ih fun request member => leaves request (List.mem_append_left _ member)
      exact perform_everywhere (leaves _ (by simp)) before granted

end Cloud

theorem Placement.leaves_of_asks {Good : Stack → Prop} {policy : StackPolicy} {now : Instant}
    {placement : Placement} {request : StackRequest}
    (written : ∀ descriptor ∈ placement.desired, ∀ name spec,
      descriptor.spec name policy.cluster now policy.grace = .ok spec →
        ∀ stack : Stack, stack.tags = spec.tags → Good stack)
    (scheduled : ∀ moment, now.plus? policy.grace = some moment →
      ∀ stack, Good stack → Good (stack.schedule moment))
    (asked : placement.Asks policy now request) : request.Leaves Good := by
  constructor
  · intro spec writes
    obtain ⟨descriptor, wanted, name, requested⟩ := asks_spec asked writes
    exact written descriptor wanted name spec requested
  · rintro name moment rfl
    exact scheduled moment (asks_schedule asked)

namespace Stack

variable {stack : Stack} {moment : Instant}

def Dated (stack : Stack) : Prop :=
  ∀ schedule, stack.tags.certificates = .ok schedule → schedule.Plain

theorem dated_congr {other : Stack} (same : stack.tags.certificates = other.tags.certificates)
    (dated : other.Dated) : stack.Dated := by
  intro schedule read
  exact dated schedule (same ▸ read)

theorem dated_schedule (dated : stack.Dated) : (stack.schedule moment).Dated :=
  dated_congr (Tags.certificates_put _ _ (by decide)) dated

/-- The controller can read the stack, which has an owner just when it is not shared and keeps at
least one certificate. -/
structure Intact (stack : Stack) : Prop where
  read : ∃ observed, ObservedStack.ofStack stack = .ok observed ∧
    (observed.owner.isSome = true ↔ observed.shared = false)
  keeps : ∃ id, stack.tags.get? (Tag.certificateStart ++ id) = some Tag.keepIndefinitely

theorem intact_congr {other : Stack} (same : stack.tags = other.tags) (intact : other.Intact) :
    stack.Intact := by
  obtain ⟨⟨observed, read, exclusive⟩, keeps⟩ := intact
  exact ⟨⟨_, ObservedStack.ofStack_congr same read, exclusive⟩, same ▸ keeps⟩

theorem intact_schedule (plain : moment.HasPlainYear) (intact : stack.Intact) :
    (stack.schedule moment).Intact := by
  obtain ⟨⟨observed, read, exclusive⟩, id, kept⟩ := intact
  have reflects := reflects_schedule (ObservedStack.ofStack_eq_ok_iff.mp read) plain
  refine ⟨⟨_, ObservedStack.ofStack_eq_ok_iff.mpr reflects, exclusive⟩, id, ?_⟩
  rw [get?_schedule (Tag.certificate_ne (by decide) id), kept]

end Stack

namespace Descriptor

variable {descriptor : Descriptor} {now : Instant} {grace : Span} {name : StackName}
  {cluster : String} {spec : StackSpec} {stack : Stack}

theorem tags_of_spec (requested : descriptor.spec name cluster now grace = .ok spec) :
    ∃ schedule, descriptor.desiredCertificates now grace = .ok schedule ∧
      spec.tags = descriptor.tagsFor cluster schedule := by
  obtain ⟨schedule, desired, same⟩ := Attempt.bind_eq_ok_iff.mp requested
  cases same
  exact ⟨schedule, desired, rfl⟩

theorem dated_of_spec (ends : ∀ moment, now.plus? grace = some moment → moment.HasPlainYear)
    (plain : descriptor.Plain) (requested : descriptor.spec name cluster now grace = .ok spec)
    (tagged : stack.tags = spec.tags) : stack.Dated := by
  obtain ⟨schedule, desired, stated⟩ := tags_of_spec requested
  have plain := desiredCertificates_plain desired ends plain
  intro schedule' read
  rw [tagged, stated, certificates_tagsFor _ _ plain] at read
  cases read
  exact Tags.recalled_plain plain

theorem intact_of_spec (ends : ∀ moment, now.plus? grace = some moment → moment.HasPlainYear)
    (plain : descriptor.Plain) (recordable : descriptor.Recordable)
    (exclusive : descriptor.owner.isSome = true ↔ descriptor.shared = false)
    (filled : descriptor.hasEndpoints = true)
    (requested : descriptor.spec name cluster now grace = .ok spec)
    (tagged : stack.tags = spec.tags) : stack.Intact := by
  obtain ⟨schedule, desired, stated⟩ := tags_of_spec requested
  have plain := desiredCertificates_plain desired ends plain
  have reflects := shown_reflects recordable plain (tagged.trans stated)
  obtain ⟨id, used⟩ := hasEndpoints_iff.mp filled
  exact ⟨⟨_, ObservedStack.ofStack_eq_ok_iff.mpr reflects, exclusive⟩, id,
    tagged ▸ spec_keeps requested used⟩

end Descriptor

namespace Placement

variable {policy : PlacementPolicy} {alarms : Option AlarmSet} {now : Instant}
  {listed : List Stack} {endpoints : List ResolvedEndpoint}

theorem ofStacks_plain (dated : ∀ stack ∈ listed, stack.Dated) :
    ∀ descriptor ∈ (ofStacks policy listed endpoints alarms now).descriptors,
      descriptor.Plain := by
  intro descriptor placed observed existing
  obtain ⟨stack, member, read⟩ := existing_readable placed existing
  exact dated stack member _ (ObservedStack.ofStack_eq_ok_iff.mp read).certificates

theorem ofStacks_exclusive (intact : ∀ stack ∈ listed, stack.Intact) :
    ∀ descriptor ∈ (ofStacks policy listed endpoints alarms now).descriptors,
      descriptor.owner.isSome = true ↔ descriptor.shared = false := by
  apply descriptor_induction
  · intro descriptor seed
    obtain ⟨observed, member, rfl⟩ := mem_seeded.mp seed
    obtain ⟨stack, member, read⟩ := mem_readable.mp member
    obtain ⟨other, read', exclusive⟩ := (intact stack member).read
    obtain rfl := Except.ok.inj (read.symm.trans read')
    exact exclusive
  · exact fun descriptor resolved _ exclusive _ _ => exclusive
  · intro resolved _ _
    have fresh : (fresh policy resolved.endpoint alarms).owner.isSome = true ↔
        (fresh policy resolved.endpoint alarms).shared = false := by
      rw [fresh]
      cases resolved.endpoint.shared with
      | true => simp [Descriptor.ofShared]
      | false => simp [Descriptor.dedicated]
    exact fresh

theorem unreadable_of_intact (intact : ∀ stack ∈ listed, stack.Intact) :
    unreadable listed = [] := by
  refine List.filterMap_eq_nil_iff.mpr fun stack member => ?_
  obtain ⟨observed, read, _⟩ := (intact stack member).read
  rw [read]

end Placement

namespace Controller

variable {controller : Controller} {circumstances : Circumstances} {world : World}
  {Good : Stack → Prop}

theorem pass_leaves
    (written : ∀ endpoints orchestrator resolution listed,
      Prepared controller circumstances world endpoints orchestrator resolution listed →
      ∀ descriptor ∈ (Placement.ofStacks controller.placementPolicy listed resolution.resolved
          (controller.alarms orchestrator).1 circumstances.now).desired, ∀ name spec,
        descriptor.spec name controller.settings.clusterId circumstances.now controller.grace
            = .ok spec →
          ∀ stack : Stack, stack.tags = spec.tags → Good stack)
    (scheduled : ∀ moment, circumstances.now.plus? controller.grace = some moment →
      ∀ stack, Good stack → Good (stack.schedule moment)) :
    ∀ request ∈ (controller.pass circumstances world).granted, request.Leaves Good := by
  intro request granted
  rcases controller.pass_stages circumstances world with
    ⟨_, idle, _⟩ | ⟨endpoints, orchestrator, resolution, listed, prepared, placing, acts⟩
  · rw [idle] at granted
    cases granted
  · refine Placement.leaves_of_asks ?_ scheduled ((grounded_of_acts acts).asked request granted)
    rw [placing]
    exact written endpoints orchestrator resolution listed prepared

/-- What holds of all stacks and is left by all granted requests holds throughout the pass. -/
theorem pass_everywhere
    (leaves : ∀ request ∈ (controller.pass circumstances world).granted, request.Leaves Good)
    (good : world.cloud.Everywhere Good) :
    (controller.pass circumstances world).world.cloud.Everywhere Good := by
  rcases controller.pass_cases circumstances world with ⟨same, _⟩ | ⟨_, _, _, _, _, grounded⟩
  · rwa [same]
  · obtain ⟨cloud, performs, same⟩ := grounded.performed
    intro name stack found
    rw [same] at found
    exact Cloud.performs_everywhere leaves good performs name stack found

theorem listed_everywhere {cluster : String} {listed : List Stack}
    (good : world.cloud.Everywhere Good) (listing : world.cloud.listStacks cluster = .ok listed) :
    ∀ stack ∈ listed, Good stack := by
  intro stack member
  obtain ⟨name, found⟩ := Cloud.mem_listStacks listing member
  exact good name stack found

variable (ends : ∀ moment, circumstances.now.plus? controller.grace = some moment →
  moment.HasPlainYear)

include ends in
theorem pass_leaves_dated (dated : world.cloud.Everywhere Stack.Dated) :
    ∀ request ∈ (controller.pass circumstances world).granted,
      request.Leaves Stack.Dated := by
  refine pass_leaves ?_ fun moment _ stack dated => Stack.dated_schedule dated
  intro _ _ _ listed prepared descriptor wanted name spec requested stack tagged
  have placed := (List.mem_filter.mp wanted).1
  have listed := listed_everywhere dated prepared.stacks_listed
  exact Descriptor.dated_of_spec ends (Placement.ofStacks_plain listed descriptor placed) requested
    tagged

def ListsRecordable (circumstances : Circumstances) (world : World) : Prop :=
  ∀ endpoints orchestrator,
    world.orchestrator.list circumstances.files = .ok (endpoints, orchestrator) →
      ∀ endpoint ∈ endpoints, endpoint.Recordable

include ends in
theorem pass_leaves_intact (recordable : ListsRecordable circumstances world)
    (intact : world.cloud.Everywhere Stack.Intact) (dated : world.cloud.Everywhere Stack.Dated) :
    ∀ request ∈ (controller.pass circumstances world).granted,
      request.Leaves Stack.Intact := by
  refine pass_leaves ?_ fun moment ended stack intact =>
    Stack.intact_schedule (ends moment ended) intact
  intro endpoints orchestrator resolution listed prepared descriptor wanted name spec requested
    stack tagged
  obtain ⟨placed, filled⟩ := List.mem_filter.mp wanted
  have handed : ∀ resolved ∈ resolution.resolved, resolved.endpoint.Recordable := by
    intro resolved member
    refine recordable endpoints orchestrator prepared.endpoints_listed _ ?_
    exact (Resolution.ofEndpoints_covers prepared.resolved).handed.subset
      (List.mem_map_of_mem member)
  have sound := listed_everywhere intact prepared.stacks_listed
  have plain := Placement.ofStacks_plain (listed_everywhere dated prepared.stacks_listed)
    descriptor placed
  have recordable := Placement.ofStacks_recordable handed descriptor placed
  exact Descriptor.intact_of_spec ends plain recordable
    (Placement.ofStacks_exclusive sound descriptor placed) filled requested tagged

end Controller

end IngressControl
