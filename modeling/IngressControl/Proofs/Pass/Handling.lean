import IngressControl.Proofs.Pass.Delivery
import IngressControl.Proofs.Pass.Effect
import IngressControl.Proofs.Pass.Removal
import IngressControl.Proofs.Pass.Scopes
/-!
Each listed stack is handled once.

A stack that can be read exists on one load balancer, which either is wanted or is an orphan; the
names of both kinds together have no repetition, and the requests that alter stacks follow them. A
stack that cannot be read is named by one problem and otherwise left out.
-/

namespace IngressControl

open Attempt

variable {policy : StackPolicy} {now : Instant} {request : StackRequest}

def StackRequest.altered? : StackRequest → Option StackName
  | .create _ => none
  | .update spec => some spec.name
  | .scheduleDeletion stack _ => some stack
  | .delete stack => some stack

theorem Descriptor.Asks.stackName {descriptor : Descriptor} {name : StackName}
    (asks : descriptor.Asks policy now request) (altered : request.altered? = some name) :
    descriptor.stackName? = some name := by
  cases asks with
  | create => cases altered
  | update _ existing requested =>
      rw [stackName?, existing, Option.map_some, ← altered, StackRequest.altered?,
        Descriptor.spec_name requested]

theorem ObservedStack.Asks.altered {orphan : ObservedStack}
    (asks : orphan.Asks policy now request) : request.altered? = some orphan.name := by
  cases asks <;> rfl

theorem Descriptor.Dealt.asks {descriptor : Descriptor} {dealing : Dealing DesiredAction}
    (dealt : descriptor.Dealt policy now dealing) (made : dealing.request? policy = some request) :
    descriptor.Asks policy now request := by
  have moved := dealt.moved
  rw [Dealing.request?] at made
  split at made
  · rename_i requested
    split at made
    · cases made
    · cases made
      rw [requested] at moved
      exact Descriptor.asks_of_move dealt.planned moved
  · cases made
  · cases made

theorem ObservedStack.Dealt.asks {orphan : ObservedStack} {dealing : Dealing OrphanAction}
    (dealt : orphan.Dealt policy now dealing) (made : dealing.request? policy = some request) :
    orphan.Asks policy now request := by
  rw [Dealing.request?] at made
  split at made
  · rename_i requested
    split at made
    · cases made
    · cases made
      rw [dealt.moved] at requested
      exact ObservedStack.asks_of_move dealt.planned requested
  · cases made
  · cases made

namespace Placement

variable {placement : Placement}

def handled (placement : Placement) : List StackName :=
  placement.desired.filterMap Descriptor.stackName? ++ placement.orphaned.map ObservedStack.name

theorem handled_perm (placement : Placement) :
    placement.handled.Perm (placement.descriptors.filterMap Descriptor.stackName?) := by
  have orphans : placement.orphaned.map ObservedStack.name
      = (placement.descriptors.filter fun descriptor => !descriptor.hasEndpoints).filterMap
        Descriptor.stackName? := by
    rw [orphaned, List.map_filterMap]
    rfl
  rw [handled, orphans, desired, ← List.filterMap_append]
  exact (List.filter_append_perm Descriptor.hasEndpoints placement.descriptors).filterMap _

theorem altered_of_asks {name : StackName} (asked : placement.Asks policy now request)
    (altered : request.altered? = some name) :
    ∃ descriptor ∈ placement.descriptors, descriptor.stackName? = some name := by
  rcases asked with ⟨descriptor, wanted, asks⟩ | ⟨orphan, orphaned, asks⟩
  · exact ⟨descriptor, (List.mem_filter.mp wanted).1, asks.stackName altered⟩
  · obtain ⟨descriptor, placed, _, existing⟩ := mem_orphaned orphaned
    exact ⟨descriptor, placed, by rw [Descriptor.stackName?, existing, Option.map_some,
      ← asks.altered, altered]⟩

structure Carries (placement : Placement) (name : StackName) (observed : ObservedStack)
    (descriptor : Descriptor) : Prop where
  called : observed.name = name
  present : descriptor ∈ placement.descriptors
  existing : descriptor.existing = some observed
  unique : ∀ other ∈ placement.descriptors, other.stackName? = some name → other = descriptor

theorem exists_carries {listed : List Stack} (distinct : (listed.map Stack.name).Nodup)
    (placementPolicy : PlacementPolicy) (endpoints : List ResolvedEndpoint)
    (alarms : Option AlarmSet) (now : Instant) {stack : Stack} {observed : ObservedStack}
    (member : stack ∈ listed) (read : ObservedStack.ofStack stack = .ok observed) :
    ∃ descriptor, (ofStacks placementPolicy listed endpoints alarms now).Carries stack.name observed
      descriptor := by
  have called : observed.name = stack.name := by
    rw [ObservedStack.name, (ObservedStack.ofStack_eq_ok read).1]
  obtain ⟨descriptor, present, existing⟩ : ∃ descriptor ∈
      (ofStacks placementPolicy listed endpoints alarms now).descriptors,
      descriptor.existing = some observed :=
    stackName_of_readable endpoints (mem_readable.mpr ⟨stack, member, read⟩)
  have named : descriptor.stackName? = some stack.name := by
    rw [Descriptor.stackName?, existing, Option.map_some, called]
  exact ⟨descriptor, called, present, existing,
    fun other here same => stackName_unique distinct here present same named⟩

section Carries

variable {name : StackName} {observed : ObservedStack} {descriptor : Descriptor}

theorem stackName_of_carries (carries : placement.Carries name observed descriptor) :
    descriptor.stackName? = some name := by
  rw [Descriptor.stackName?, carries.existing, Option.map_some, carries.called]

theorem vacant_of_carries (carries : placement.Carries name observed descriptor)
    {orphan : ObservedStack} (orphaned : orphan ∈ placement.orphaned) (same : orphan.name = name) :
    orphan = observed ∧ descriptor.hasEndpoints = false := by
  obtain ⟨other, here, unfilled, existing⟩ := mem_orphaned orphaned
  have only := carries.unique other here
    (by rw [Descriptor.stackName?, existing, Option.map_some, same])
  rw [only] at existing unfilled
  exact ⟨Option.some.inj (existing.symm.trans carries.existing), unfilled⟩

theorem desired_iff_of_carries (carries : placement.Carries name observed descriptor) :
    (∃ descriptor ∈ placement.desired, descriptor.existing = some observed) ↔
      observed ∉ placement.orphaned := by
  constructor
  · rintro ⟨other, wanted, existing⟩ orphaned
    obtain ⟨here, filled⟩ := List.mem_filter.mp wanted
    have only := carries.unique other here
      (by rw [Descriptor.stackName?, existing, Option.map_some, carries.called])
    rw [only, (vacant_of_carries carries orphaned carries.called).2] at filled
    cases filled
  · intro kept
    cases filled : descriptor.hasEndpoints with
    | true =>
        exact ⟨descriptor, List.mem_filter.mpr ⟨carries.present, filled⟩, carries.existing⟩
    | false =>
        exact absurd (mem_orphaned_of_vacant carries.present filled carries.existing) kept

theorem desired_of_update (carries : placement.Carries name observed descriptor)
    {spec : StackSpec} (asked : placement.Asks policy now (.update spec)) (same : spec.name = name) :
    ∃ descriptor ∈ placement.desired, descriptor.existing = some observed := by
  rcases asked with ⟨other, wanted, asks⟩ | ⟨_, _, asks⟩
  · have only := carries.unique other (List.mem_filter.mp wanted).1
      ((asks.stackName rfl).trans (congrArg some same))
    exact ⟨other, wanted, by rw [only, carries.existing]⟩
  · cases asks

theorem orphaned_of_removal (carries : placement.Carries name observed descriptor)
    (asked : placement.Asks policy now request) (alters : request.altered? = some name)
    (removes : ∀ spec, request ≠ .update spec) : observed ∈ placement.orphaned := by
  rcases asked with ⟨_, _, asks⟩ | ⟨orphan, orphaned, asks⟩
  · cases asks with
    | create => cases alters
    | update => exact absurd rfl (removes _)
  · have same := Option.some.inj (asks.altered.symm.trans alters)
    rw [← (vacant_of_carries carries orphaned same).1]
    exact orphaned

end Carries

end Placement

namespace StackWork

theorem altered_attended {descriptors handled : List Descriptor}
    {dealings : List (Dealing DesiredAction)} (front : handled <+: descriptors)
    (dealt : List.Forall₂ (Descriptor.Dealt policy now) handled dealings) :
    ((dealings.filterMap (Dealing.request? policy)).filterMap StackRequest.altered?).Sublist
      (descriptors.filterMap Descriptor.stackName?) := by
  rw [List.filterMap_filterMap]
  refine (Pairs.filterMap_sublist ?_ dealt).trans (front.sublist.filterMap _)
  intro descriptor dealing dealt name found
  obtain ⟨request, made, altered⟩ := Option.bind_eq_some_iff.mp found
  exact (dealt.asks made).stackName altered

theorem altered_disposed {orphans handled : List ObservedStack}
    {dealings : List (Dealing OrphanAction)} (front : handled <+: orphans)
    (dealt : List.Forall₂ (ObservedStack.Dealt policy now) handled dealings) :
    ((dealings.filterMap (Dealing.request? policy)).filterMap StackRequest.altered?).Sublist
      (orphans.map ObservedStack.name) := by
  rw [List.filterMap_filterMap, ← List.filterMap_eq_map]
  refine (Pairs.filterMap_sublist ?_ dealt).trans (front.sublist.filterMap _)
  intro orphan dealing dealt name found
  obtain ⟨request, made, altered⟩ := Option.bind_eq_some_iff.mp found
  exact (dealt.asks made).altered.symm.trans altered

end StackWork

namespace Controller

variable {controller : Controller} {circumstances : Circumstances} {world : World}
  {listed : List Stack} {placement : Placement}

/-- The requests alter stacks in the order in which they are handled, none twice. -/
theorem altered_of_acts {result : PassResult}
    (acts : Acts controller circumstances world listed placement result) :
    (result.requests.filterMap StackRequest.altered?).Sublist placement.handled := by
  obtain ⟨wanted, dealings, front, dealt, books⟩ := StackWork.reconcileAll_books
    (controller.stackPolicy circumstances.createdAt) circumstances.now
    { cloud := world.cloud, created := world.created } placement.desired
  have first := StackWork.altered_attended front dealt
  have made := books.requests
  rw [List.nil_append] at made
  rcases stacks_of_acts acts with
    ⟨work, ended, requests, _⟩ | ⟨work, cleaned, done, ended, requests, _⟩
  · rw [ended] at made
    rw [requests, made]
    exact first.trans (List.sublist_append_left _ _)
  · obtain ⟨unwanted, dealings', front', dealt', books'⟩ := StackWork.cleanUpAll_books
      (controller.stackPolicy circumstances.createdAt) circumstances.now
      { work with problems := [] } placement.orphaned
    rw [done] at made
    rw [ended] at books'
    simp only [reached] at made
    rw [requests, books'.requests, made, List.filterMap_append]
    exact first.append (StackWork.altered_disposed front' dealt')

structure HandlesOnce (stack : Stack) (observed : ObservedStack) (result : PassResult) : Prop where
  one : ∃ descriptor, (result.placement.descriptors.filter fun descriptor =>
    descriptor.stackName? = some stack.name) = [descriptor] ∧ descriptor.existing = some observed
  either : (∃ descriptor ∈ result.placement.desired, descriptor.existing = some observed) ↔
    observed ∉ result.placement.orphaned
  once : (result.requests.filter fun request => request.altered? = some stack.name).length ≤ 1
  updated : ∀ spec, .update spec ∈ result.requests → spec.name = stack.name →
    ∃ descriptor ∈ result.placement.desired, descriptor.existing = some observed
  scheduled : ∀ moment, .scheduleDeletion stack.name moment ∈ result.requests →
    observed ∈ result.placement.orphaned
  deleted : .delete stack.name ∈ result.requests → observed ∈ result.placement.orphaned

structure PassesOver (controller : Controller) (circumstances : Circumstances) (world : World)
    (listed : List Stack) (stack : Stack) (failure : Failure) (result : PassResult) : Prop where
  untouched : ∀ request ∈ result.requests, request.altered? ≠ some stack.name
  noted : scopedAt stack.name result.placement.problems = [Problem.ofStack stack.name failure]
  reported : ∀ report, result.outcome = .ok report →
    scopedAt stack.name report.problems = [Problem.ofStack stack.name failure]
  descriptors : ∀ cloud : Cloud,
    cloud.listStacks controller.settings.clusterId = .ok (listed.erase stack) →
      (controller.pass circumstances { world with cloud }).placement.descriptors
        = result.placement.descriptors

section Placed

variable {resolved : List ResolvedEndpoint} {alarms : Option AlarmSet} {result : PassResult}
  {placementPolicy : PlacementPolicy}

theorem handlesOnce_of_placed (distinct : (listed.map Stack.name).Nodup)
    (placed : result.placement
      = Placement.ofStacks placementPolicy listed resolved alarms circumstances.now)
    (asked : ∀ request ∈ result.requests, result.placement.Asks
      (controller.stackPolicy circumstances.createdAt) circumstances.now request)
    (altered : (result.requests.filterMap StackRequest.altered?).Sublist result.placement.handled)
    {stack : Stack} {observed : ObservedStack} (member : stack ∈ listed)
    (read : ObservedStack.ofStack stack = .ok observed) : HandlesOnce stack observed result := by
  obtain ⟨descriptor, carries⟩ : ∃ descriptor,
      result.placement.Carries stack.name observed descriptor := by
    rw [placed]
    exact Placement.exists_carries distinct _ _ _ _ member read
  have names : result.placement.handled.Nodup := by
    rw [(Placement.handled_perm _).nodup_iff, placed]
    exact Placement.ofStacks_stackNames_nodup resolved distinct
  refine ⟨⟨descriptor, ?_, carries.existing⟩, Placement.desired_iff_of_carries carries, ?_, ?_, ?_, ?_⟩
  · apply Placement.filter_eq_singleton
    · have apart : result.placement.descriptors.Pairwise Placement.Unrelated := by
        rw [placed]
        exact Placement.ofStacks_unrelated resolved distinct
      refine apart.imp fun {first second} unrelated both => ?_
      simp only [decide_eq_true_eq] at both
      exact unrelated _ both.1 both.2
    · exact carries.present
    · exact decide_eq_true (Placement.stackName_of_carries carries)
  · apply Placement.filter_length_le_one
    refine (List.pairwise_filterMap.mp (altered.nodup names)).imp ?_
    intro first second apart both
    simp only [decide_eq_true_eq] at both
    exact apart _ both.1 _ both.2 rfl
  · exact fun spec made same => Placement.desired_of_update carries (asked _ made) same
  · exact fun moment made => Placement.orphaned_of_removal carries (asked _ made) rfl (by simp)
  · exact fun made => Placement.orphaned_of_removal carries (asked _ made) rfl (by simp)

theorem untouched_of_placed (distinct : (listed.map Stack.name).Nodup)
    (placed : result.placement
      = Placement.ofStacks placementPolicy listed resolved alarms circumstances.now)
    (asked : ∀ request ∈ result.requests, result.placement.Asks
      (controller.stackPolicy circumstances.createdAt) circumstances.now request)
    {stack : Stack} {failure : Failure} (member : stack ∈ listed)
    (unread : ObservedStack.ofStack stack = .error failure) {request : StackRequest}
    (made : request ∈ result.requests) : request.altered? ≠ some stack.name := by
  intro altered
  obtain ⟨descriptor, present, named⟩ := Placement.altered_of_asks (asked request made) altered
  rw [placed] at present
  exact Placement.unnamed_of_unreadable distinct member unread present named

end Placed

section Prepared

variable {endpoints : List Endpoint} {orchestrator : Orchestrator} {resolution : Resolution}

theorem placed_of_prepared
    (prepared : Prepared controller circumstances world endpoints orchestrator resolution listed)
    (calm : world.orchestrator.crash = none) :
    (controller.pass circumstances world).placement = Placement.ofStacks
      controller.placementPolicy listed resolution.resolved (controller.alarms orchestrator).1
        circumstances.now := by
  rw [pass_of_prepared prepared calm rfl]

theorem acts_of_prepared
    (prepared : Prepared controller circumstances world endpoints orchestrator resolution listed)
    (calm : world.orchestrator.crash = none) :
    Acts controller circumstances { world with orchestrator } listed
      (controller.pass circumstances world).placement (controller.pass circumstances world) := by
  rw [placed_of_prepared prepared calm, pass_of_prepared prepared calm rfl]
  exact acts_noted _ resolution.misses (act_acts { world with orchestrator })

/-- A stack that cannot be read is named by one problem, and no request is made for it. The rest of
the stacks is placed as if it were not there. -/
theorem passesOver_of_prepared
    (prepared : Prepared controller circumstances world endpoints orchestrator resolution listed)
    (calm : world.orchestrator.crash = none) (distinct : (listed.map Stack.name).Nodup)
    {stack : Stack} {failure : Failure} (member : stack ∈ listed)
    (unread : ObservedStack.ofStack stack = .error failure) :
    PassesOver controller circumstances world listed stack failure
      (controller.pass circumstances world) := by
  have placed := placed_of_prepared prepared calm
  have asked := (grounded_of_acts (acts_of_prepared prepared calm)).requested
  have noted : scopedAt stack.name (controller.pass circumstances world).placement.problems
      = [Problem.ofStack stack.name failure] := by
    rw [placed]
    exact Placement.ofStacks_scopedAt resolution.resolved distinct member unread
  refine ⟨fun request made => untouched_of_placed distinct placed asked member unread made,
    noted, ?_, ?_⟩
  · intro report done
    rw [pass_of_prepared prepared calm rfl] at done
    rw [← noted, placed]
    have resolving : BeginIn ['e', 'a'] resolution.problems :=
      beginIn_mono (Resolution.ofEndpoints_beginIn (by nofun) prepared.resolved) (by simp)
    have alarming : BeginIn ['e', 'a'] (controller.alarms orchestrator).2 :=
      beginIn_mono (alarms_beginIn controller orchestrator) (by simp)
    exact act_scopedAt (beginIn_append resolving alarming) (by decide)
      (fun descriptor present => Placement.unnamed_of_unreadable distinct member unread present) done
  · intro cloud others_listed
    have others : Prepared controller circumstances { world with cloud } endpoints orchestrator
      resolution (listed.erase stack) :=
      ⟨prepared.endpoints_listed, prepared.resolved, others_listed⟩
    rw [placed_of_prepared others calm, placed]
    exact Placement.ofStacks_erase resolution.resolved member unread

end Prepared

/-- A pass handles each stack that it lists once, or passes it over because it cannot read it. Only
times of certificates that cannot be represented end it before that. -/
theorem pass_handles (controller : Controller) (circumstances : Circumstances) (world : World)
    {endpoints : List Endpoint} {orchestrator : Orchestrator} (calm : world.orchestrator.crash = none)
    (endpoints_listed : world.orchestrator.list circumstances.files
      = .ok (endpoints, orchestrator))
    (stacks_listed : world.cloud.listStacks controller.settings.clusterId = .ok listed)
    (distinct : (listed.map Stack.name).Nodup) :
    (∃ overflow,
      Resolution.ofEndpoints circumstances.snapshot controller.settings.clusterLocalDomain
        circumstances.now {} endpoints = .error overflow ∧
      (controller.pass circumstances world).outcome = .error (.overflow overflow) ∧
      (controller.pass circumstances world).requests = []) ∨
    ∀ stack ∈ listed,
      (∀ observed, ObservedStack.ofStack stack = .ok observed →
        HandlesOnce stack observed (controller.pass circumstances world)) ∧
      ∀ failure, ObservedStack.ofStack stack = .error failure →
        PassesOver controller circumstances world listed stack failure
          (controller.pass circumstances world) := by
  cases resolved : Resolution.ofEndpoints circumstances.snapshot
      controller.settings.clusterLocalDomain circumstances.now {} endpoints with
  | error overflow =>
      refine .inl ⟨overflow, rfl, ?_⟩
      rw [pass, calm]
      simp only [endpoints_listed, process, resolved, and_self]
  | ok resolution =>
      right
      have prepared : Prepared controller circumstances world endpoints orchestrator resolution
        listed := ⟨endpoints_listed, resolved, stacks_listed⟩
      have acts := acts_of_prepared prepared calm
      intro stack member
      refine ⟨fun observed read => ?_, fun failure unread => ?_⟩
      · exact handlesOnce_of_placed distinct (placed_of_prepared prepared calm)
          (grounded_of_acts acts).requested (altered_of_acts acts) member read
      · exact passesOver_of_prepared prepared calm distinct member unread

def torn : Stack where
  name := "torn"
  status := .createComplete
  dnsName := none
  targetGroup := none
  createdAt := ⟨1767225600, 0⟩
  tags := (Tags.ownedBy "shop").insert Tag.scheme "sideways"

def muddled : World := { deserted with cloud := deserted.cloud.insertStack torn }

theorem muddled_handled :
    ∃ old observed failure, muddled.cloud.listStacks "shop" = .ok [old, torn] ∧
      deserted.cloud.listStacks "shop" = .ok ([old, torn].erase torn) ∧
      HandlesOnce old observed (steady.pass noon muddled) ∧
      PassesOver steady noon muddled [old, torn] torn failure (steady.pass noon muddled) ∧
      (steady.pass noon muddled).requests.length = 2 := by
  have resolves : (Resolution.ofEndpoints noon.snapshot steady.settings.clusterLocalDomain noon.now {}
      muddled.orchestrator.current).toOption.isSome = true := by decide +kernel
  have handled := pass_handles steady noon muddled rfl rfl rfl (by decide +kernel)
  rcases handled with ⟨overflow, failed, _⟩ | handled
  · rw [failed] at resolves
    cases resolves
  · exact ⟨_, _, _, rfl, rfl, (handled _ (.head _)).1 _ rfl,
      (handled torn (.tail _ (.head _))).2 _ rfl, by decide +kernel⟩

end Controller

end IngressControl
