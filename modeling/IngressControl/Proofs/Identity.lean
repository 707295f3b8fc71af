import IngressControl.Proofs.Legibility
/-!
What a stack is for stays the same as long as it exists.

The compatibility key, whether the stack is shared, and its owner are read from tags which every
update writes anew. An update is that of the load balancer seeded from the stack, and placement
leaves its attributes alone, so what is read before is written and read again. Tags that are
missing become explicit on the way, and nothing else happens to them.
-/

namespace IngressControl

namespace ObservedStack

structure SameIdentity (first second : ObservedStack) : Prop where
  key : second.key = first.key
  shared : second.shared = first.shared
  owner : second.owner = first.owner

theorem sameIdentity_refl (observed : ObservedStack) : observed.SameIdentity observed :=
  ⟨rfl, rfl, rfl⟩

theorem sameIdentity_trans {first second third : ObservedStack} (left : first.SameIdentity second)
    (right : second.SameIdentity third) : first.SameIdentity third :=
  ⟨right.key.trans left.key, right.shared.trans left.shared, right.owner.trans left.owner⟩

end ObservedStack

namespace Tags

theorem deletionScheduledAt_ok {tags : Tags}
    (readable : ∀ value, tags.get? Tag.deletionScheduled = some value →
      ∃ moment, Stamp.strict value = .ok moment) : ∃ due, tags.deletionScheduledAt = .ok due := by
  rw [deletionScheduledAt]
  cases tagged : tags.get? Tag.deletionScheduled with
  | none => exact ⟨none, rfl⟩
  | some value =>
      obtain ⟨moment, read⟩ := readable value tagged
      exact ⟨some moment, by simp only [Tag.readTime, read]; rfl⟩

theorem strict_of_deletionScheduledAt {tags : Tags} {due : Option Instant} {value : String}
    (read : tags.deletionScheduledAt = .ok due)
    (tagged : tags.get? Tag.deletionScheduled = some value) :
    ∃ moment, Stamp.strict value = .ok moment := by
  simp only [deletionScheduledAt, tagged] at read
  obtain ⟨moment, timed, _⟩ := Attempt.map_eq_ok_iff.mp read
  exact ⟨moment, Tag.readTime_eq_ok timed⟩

end Tags

namespace Descriptor

variable {descriptor : Descriptor} {observed : ObservedStack} {now : Instant} {grace : Span}

theorem recordable_of_rooted (rooted : descriptor.Rooted observed)
    (reflects : observed.Reflects observed.stack) : descriptor.Recordable := by
  have recordable := ObservedStack.recordable_of_reflects reflects none
  refine ⟨?_, fun id owned => recordable.owner id ?_, fun alone => ?_⟩
  · rw [rooted.key]
    exact recordable.webAcl
  · rw [rooted.owner] at owned
    exact owned
  · rw [rooted.owner]
    exact recordable.owned (rooted.shared.symm.trans alone)

theorem sameIdentity_of_spec (rooted : descriptor.Rooted observed)
    (reflects : observed.Reflects observed.stack)
    (ends : ∀ moment, now.plus? grace = some moment → moment.HasPlainYear)
    (dated : observed.stack.Dated) {name : StackName} {cluster : String} {spec : StackSpec}
    (requested : descriptor.spec name cluster now grace = .ok spec) {stack : Stack}
    (tagged : stack.tags = spec.tags) :
    ∃ later : ObservedStack, later.Reflects stack ∧ observed.SameIdentity later := by
  obtain ⟨schedule, desired, stated⟩ := tags_of_spec requested
  have old : descriptor.Plain := by
    intro other existing
    obtain rfl := Option.some.inj (rooted.existing.symm.trans existing)
    exact dated _ reflects.certificates
  have plain := desiredCertificates_plain desired ends old
  have recordable := recordable_of_rooted rooted reflects
  exact ⟨descriptor.shown schedule stack, shown_reflects recordable plain (tagged.trans stated),
    rooted.key, rooted.shared, rooted.owner⟩

theorem drift_of_rooted
    (rooted : ∀ observed, descriptor.existing = some observed → descriptor.Rooted observed)
    {parts : List Drift} (drifted : descriptor.drift now grace = .ok parts) :
    Drift.compatibility ∉ parts ∧ Drift.ownership ∉ parts := by
  rw [drift] at drifted
  cases existing : descriptor.existing with
  | none =>
      rw [existing] at drifted
      cases drifted
      decide
  | some observed =>
      have root := rooted observed existing
      rw [existing] at drifted
      obtain ⟨schedule, _, same⟩ := Attempt.map_eq_ok_iff.mp drifted
      rw [driftFrom, root.key, root.shared, root.owner] at same
      rw [← same]
      constructor <;> simp [driftIf]

end Descriptor

namespace Cloud

variable {before after : Cloud} {name : StackName} {observed : ObservedStack}

def Retains (cloud : Cloud) (name : StackName) (observed : ObservedStack) : Prop :=
  ∃ stack later, cloud.provisioned.get? name = some stack ∧
    ObservedStack.ofStack stack = .ok later ∧ observed.SameIdentity later

theorem retains_of_sameTags (same : before.SameTags after)
    (retains : before.Retains name observed) : after.Retains name observed := by
  obtain ⟨stack, later, found, read, alike⟩ := retains
  have back : after.SameTags before := fun name => (same name).symm
  obtain ⟨other, found', _, tagged⟩ := exists_of_sameTags back found
  exact ⟨other, _, found', ObservedStack.ofStack_congr tagged.symm read, alike.key, alike.shared,
    alike.owner⟩

end Cloud

namespace Controller

variable {controller : Controller} {circumstances : Circumstances} {world : World}

theorem placement_rooted :
    ∀ descriptor ∈ (controller.pass circumstances world).placement.descriptors,
      ∀ observed, descriptor.existing = some observed → descriptor.Rooted observed := by
  rcases controller.pass_cases circumstances world with
    ⟨_, _, _, blank⟩ | ⟨_, _, _, _, placing, _⟩
  · rw [blank]
    intro descriptor placed
    cases placed
  · rw [placing]
    exact Placement.ofStacks_rooted

structure Restates (world : World) (spec : StackSpec) (existing : ObservedStack) : Prop where
  found : world.cloud.provisioned.get? spec.name = some existing.stack
  read : ObservedStack.ofStack existing.stack = .ok existing
  key : spec.key = existing.key
  alike : ∀ stack : Stack, stack.tags = spec.tags →
    ∃ later, ObservedStack.ofStack stack = .ok later ∧ existing.SameIdentity later

section Pass

variable (named : world.cloud.Named) (dated : world.cloud.Everywhere Stack.Dated)
  (ends : ∀ moment, circumstances.now.plus? controller.grace = some moment → moment.HasPlainYear)

include dated ends in
theorem restates_of_updates {spec : StackSpec} {descriptor : Descriptor} {existing : ObservedStack}
    (updates : Updates controller circumstances world spec descriptor existing) :
    Restates world spec existing := by
  have rooted := placement_rooted descriptor updates.placed existing updates.old
  refine ⟨updates.found, ObservedStack.ofStack_eq_ok_iff.mpr updates.reflects, ?_, ?_⟩
  · obtain ⟨_, _, same⟩ := Attempt.bind_eq_ok_iff.mp updates.requested
    rw [← Except.ok.inj same]
    exact rooted.key
  · intro stack tagged
    obtain ⟨later, reflects, alike⟩ := Descriptor.sameIdentity_of_spec rooted updates.reflects ends
      (dated spec.name existing.stack updates.found) updates.requested tagged
    exact ⟨later, ObservedStack.ofStack_eq_ok_iff.mpr reflects, alike⟩

include named dated ends

theorem pass_restates {spec : StackSpec}
    (requested : .update spec ∈ (controller.pass circumstances world).requests) :
    ∃ existing, Restates world spec existing := by
  have asked := pass_requested controller circumstances world _ requested
  obtain ⟨_, existing, updates⟩ := updates_of_asks named asked
  exact ⟨existing, restates_of_updates dated ends updates⟩

omit named dated in
theorem pass_deletionScheduledAt {name : StackName} {stack later : Stack} {due : Option Instant}
    (present : world.cloud.provisioned.get? name = some stack)
    (read : stack.tags.deletionScheduledAt = .ok due)
    (found : (controller.pass circumstances world).world.cloud.provisioned.get? name = some later) :
    ∃ due', later.tags.deletionScheduledAt = .ok due' := by
  refine Tags.deletionScheduledAt_ok fun value tagged => ?_
  have marked : (controller.pass circumstances world).world.cloud.mark name = some value := by
    rw [Cloud.mark, found]
    exact tagged
  rcases pass_mark marked with ⟨moment, _, ended, rfl⟩ | ⟨old, _⟩
  · exact ⟨_, Stamp.strict_secondText (ends moment ended)⟩
  · rw [Cloud.mark, present] at old
    exact Tags.strict_of_deletionScheduledAt read old

/-- Whatever wrote the tags of a stack that is there before and after a pass, but for the deletion
time they are those of a stack for the same purpose. -/
theorem pass_resembles {name : StackName} {stack later : Stack} {current : ObservedStack}
    (present : world.cloud.provisioned.get? name = some stack)
    (read : ObservedStack.ofStack stack = .ok current)
    (found : (controller.pass circumstances world).world.cloud.provisioned.get? name = some later) :
    ∃ (base : Stack) (other : ObservedStack), ObservedStack.ofStack base = .ok other ∧
      Cloud.Resembles later.tags base.tags ∧ current.SameIdentity other := by
  rcases pass_stack named found with
    ⟨absent, _⟩ | ⟨earlier, known, _, ⟨spec, granted, rfl, resembles⟩ | ⟨_, resembles⟩⟩
  · cases present.symm.trans absent
  · obtain ⟨_, existing, updates⟩ := pass_update named granted
    have restates := restates_of_updates dated ends updates
    have same : existing.stack = stack := Option.some.inj (restates.found.symm.trans present)
    obtain rfl : existing = current := by
      have read' := restates.read
      rw [same, read] at read'
      exact (Except.ok.inj read').symm
    obtain ⟨other, written, alike⟩ := restates.alike { later with tags := spec.tags } rfl
    exact ⟨_, other, written, resembles, alike⟩
  · obtain rfl := Option.some.inj (present.symm.trans known)
    exact ⟨stack, current, read, resembles, current.sameIdentity_refl⟩

theorem pass_retains {name : StackName} {observed : ObservedStack}
    (stands : (controller.pass circumstances world).world.cloud.provisioned.contains name = true)
    (retains : world.cloud.Retains name observed) :
    (controller.pass circumstances world).world.cloud.Retains name observed := by
  obtain ⟨stack, current, present, read, alike⟩ := retains
  obtain ⟨later, found⟩ := Table.contains_iff.mp stands
  have reflects := ObservedStack.ofStack_eq_ok_iff.mp read
  obtain ⟨due, deletion⟩ := pass_deletionScheduledAt ends present reflects.deletion found
  obtain ⟨base, other, read', resembles, alike'⟩ :=
    pass_resembles named dated ends present read found
  have final := Stack.reflects_of_resembles (ObservedStack.ofStack_eq_ok_iff.mp read') resembles
    deletion
  have whole := ObservedStack.sameIdentity_trans alike alike'
  exact ⟨later, _, found, ObservedStack.ofStack_eq_ok_iff.mpr final, whole.key, whole.shared,
    whole.owner⟩

end Pass

/-- Stacks are stored under their names, and the removal times of their certificates have years of
four digits when the run starts. -/
def StartsDated (turns : List Turn) : Prop :=
  ∀ turn ∈ turns.head?, turn.world.cloud.Named ∧ turn.world.cloud.Everywhere Stack.Dated

def Stands (controller : Controller) (turns : List Turn) (name : StackName) : Prop :=
  ∀ turn ∈ turns, (turn.result controller).world.cloud.provisioned.contains name = true

/-- From any turn on a stack that can be read is for the same purpose as long as it exists, and no
request to update says otherwise. -/
structure KeepsPurpose (controller : Controller) (turns : List Turn) : Prop where
  lasting : ∀ first between name stack observed, first :: between <:+: turns →
    first.world.cloud.provisioned.get? name = some stack →
    ObservedStack.ofStack stack = .ok observed → controller.Stands (first :: between) name →
      ∀ turn ∈ first :: between, (turn.result controller).world.cloud.Retains name observed
  updates : ∀ turn ∈ turns, ∀ spec, .update spec ∈ (turn.result controller).requests →
    ∃ existing, Restates turn.world spec existing

section Runs

variable {turns : List Turn} (run : controller.IsRun turns)
  (ends : ∀ turn ∈ turns, ∀ moment, turn.now.plus? controller.grace = some moment →
    moment.HasPlainYear)

include run ends

theorem run_dated (start : StartsDated turns) : ∀ turn ∈ turns,
    turn.world.cloud.Named ∧ turn.world.cloud.Everywhere Stack.Dated := by
  refine run_invariant (R := fun before after => before.cloud.SameTags after.cloud)
    (motive := fun world => world.cloud.Named ∧ world.cloud.Everywhere Stack.Dated)
    run start ?_ ?_
  · rintro before after same ⟨named, dated⟩
    exact ⟨Cloud.named_of_sameTags same named, Cloud.dated_of_sameTags same dated⟩
  · rintro turn member ⟨named, dated⟩
    exact ⟨pass_named named, pass_everywhere (pass_leaves_dated (ends turn member) dated) dated⟩

theorem run_retains {name : StackName} {observed : ObservedStack}
    (sound : ∀ turn ∈ turns, turn.world.cloud.Named ∧ turn.world.cloud.Everywhere Stack.Dated)
    (stands : controller.Stands turns name)
    (start : ∀ first ∈ turns.head?, first.world.cloud.Retains name observed) :
    ∀ turn ∈ turns, (turn.result controller).world.cloud.Retains name observed := by
  have step (turn : Turn) (member : turn ∈ turns)
      (retains : turn.world.cloud.Retains name observed) :
      (turn.result controller).world.cloud.Retains name observed := by
    obtain ⟨named, dated⟩ := sound turn member
    exact pass_retains named dated (ends turn member) (stands turn member) retains
  have before : ∀ turn ∈ turns, turn.world.cloud.Retains name observed :=
    run_invariant (R := fun before after => before.cloud.SameTags after.cloud)
      (motive := fun world => world.cloud.Retains name observed) run start
      (fun _ _ => Cloud.retains_of_sameTags) step
  exact fun turn member => step turn member (before turn member)

end Runs

/-- Whatever the cloud holds at first, the identity of a stack never changes in a run: neither from
pass to pass nor by a request, and placement never finds that it has drifted. -/
theorem identity_kept (controller : Controller) (turns : List Turn) (run : controller.IsRun turns)
    (start : StartsDated turns) (plain : controller.EndsPlainly turns) :
    controller.KeepsPurpose turns ∧
      ∀ policy listed endpoints alarms now, ∀ descriptor ∈
        (Placement.ofStacks policy listed endpoints alarms now).descriptors,
          ∀ moment grace parts, descriptor.drift moment grace = .ok parts →
            Drift.compatibility ∉ parts ∧ Drift.ownership ∉ parts := by
  have ends := ends_plainly plain
  have sound := run_dated run ends start
  refine ⟨⟨?_, ?_⟩, ?_⟩
  · intro first between name stack observed inside present read stands
    have within (turn : Turn) (member : turn ∈ first :: between) : turn ∈ turns :=
      inside.subset member
    obtain ⟨earlier, later, rfl⟩ := inside
    have through : controller.IsRun (first :: between) :=
      (List.isChain_append.mp (List.isChain_append.mp run).1).2.1
    refine run_retains through (fun turn member => ends turn (within turn member))
      (fun turn member => sound turn (within turn member)) stands ?_
    rintro _ ⟨⟩
    exact ⟨stack, observed, present, read, observed.sameIdentity_refl⟩
  · intro turn member spec requested
    obtain ⟨named, dated⟩ := sound turn member
    exact pass_restates named dated (ends turn member) requested
  · intro policy listed endpoints alarms now descriptor placed moment grace parts drifted
    exact Descriptor.drift_of_rooted (Placement.ofStacks_rooted descriptor placed) drifted

def adopted : Turn where
  world :=
    { orchestrator := ({} : Orchestrator).upsert
        { id := ⟨.ingress, "shop", "a"⟩, hostnames := ["h1.x"], scheme := .internal }
      cloud := ({} : Cloud).insertStack abandoned }
  circumstances := midday

def settled : Turn where
  world := (adopted.result steady).world
  circumstances := { midday with now := ⟨1772366700, 5⟩ }

theorem abandoned_dated : abandoned.Dated := by
  have none_tagged : abandoned.tags.certificates = .ok {} := by decide +kernel
  intro schedule read
  obtain rfl := Except.ok.inj (none_tagged.symm.trans read)
  rintro _ _ ⟨⟩

theorem adopted_keeps_purpose :
    steady.KeepsPurpose [adopted, settled] ∧ ∃ observed,
      ObservedStack.ofStack abandoned = .ok observed ∧
        (settled.result steady).world.cloud.Retains "old" observed := by
  have run : steady.IsRun [adopted, settled] :=
    .cons_cons (Cloud.sameTags_refl _) (.singleton _)
  have start : StartsDated [adopted, settled] := by
    rintro first ⟨⟩
    exact ⟨Cloud.insertStack_named Cloud.empty_named abandoned,
      Cloud.insertStack_everywhere (Cloud.everywhere_of_empty rfl) abandoned_dated⟩
  have plain : steady.EndsPlainly [adopted, settled] := by
    intro turn member
    simp only [List.mem_cons, List.not_mem_nil, or_false] at member
    rcases member with rfl | rfl
    · exact ⟨⟨1772370000, 0⟩, by decide +kernel, by decide +kernel, by decide +kernel⟩
    · exact ⟨⟨1772370300, 5⟩, by decide +kernel, by decide +kernel, by decide +kernel⟩
  have stands : steady.Stands [adopted, settled] "old" := by
    intro turn member
    simp only [List.mem_cons, List.not_mem_nil, or_false] at member
    rcases member with rfl | rfl
    · simp only [Turn.result, pass, process, Placement.ofStacks_eq_insertion]
      decide +kernel
    · simp only [settled, Turn.result, pass, process, Placement.ofStacks_eq_insertion]
      decide +kernel
  have kept := (identity_kept steady [adopted, settled] run start plain).1
  have readable : (ObservedStack.ofStack abandoned).toOption.isSome = true := by decide +kernel
  obtain ⟨observed, read⟩ := Option.isSome_iff_exists.mp readable
  have read : ObservedStack.ofStack abandoned = .ok observed := by
    cases outcome : ObservedStack.ofStack abandoned with
    | error failure =>
        rw [outcome] at read
        cases read
    | ok other =>
        rw [outcome] at read
        exact congrArg Except.ok (Option.some.inj read)
  have present : adopted.world.cloud.provisioned.get? "old" = some abandoned := by
    decide +kernel
  exact ⟨kept, observed, read, kept.lasting adopted [settled] "old" abandoned observed
    (List.infix_refl _) present read stands settled (by simp)⟩

end Controller

end IngressControl
