import Mathlib.Data.List.Chain
import Mathlib.Data.List.Induction
import IngressControl.Proofs.Instant.Stamp
import IngressControl.Proofs.Pass.Removal
/-!
Runs of passes, and the grace period that they keep.

Between two passes stacks keep their names and tags; anything else may become different, also the
time. The invariant of a run is that every deletion time in the cloud goes back to a pass that
scheduled it, with no update of the stack by any pass since.
-/

namespace IngressControl

structure Turn where
  world : World
  circumstances : Circumstances

namespace Turn

def now (turn : Turn) : Instant := turn.circumstances.now

def result (controller : Controller) (turn : Turn) : PassResult :=
  controller.pass turn.circumstances turn.world

end Turn

namespace Cloud

def SameTags (before after : Cloud) : Prop :=
  ∀ name, (after.provisioned.get? name).map (fun stack => (stack.name, stack.tags))
    = (before.provisioned.get? name).map fun stack => (stack.name, stack.tags)

variable {before after : Cloud}

theorem sameTags_refl (cloud : Cloud) : cloud.SameTags cloud := fun _ => rfl

theorem changeStack_sameTags (cloud : Cloud) (name : StackName) {change : Stack → Stack}
    (kept : ∀ stack, (change stack).name = stack.name ∧ (change stack).tags = stack.tags) :
    cloud.SameTags (cloud.changeStack name change) := by
  intro wanted
  rw [changeStack]
  by_cases same : wanted = name
  · subst same
    rw [Table.get?_modify_self]
    cases cloud.provisioned.get? wanted with
    | none => rfl
    | some stack => simp [kept stack]
  · rw [Table.get?_modify_of_ne _ same]

theorem exists_of_sameTags (same : before.SameTags after) {name : StackName} {stack : Stack}
    (found : after.provisioned.get? name = some stack) :
    ∃ old, before.provisioned.get? name = some old ∧ stack.name = old.name ∧
      stack.tags = old.tags := by
  have kept := same name
  rw [found] at kept
  obtain ⟨old, known, equal⟩ := Option.map_eq_some_iff.mp kept.symm
  exact ⟨old, known, congrArg Prod.fst equal.symm, congrArg Prod.snd equal.symm⟩

theorem named_of_sameTags (same : before.SameTags after) (named : before.Named) : after.Named := by
  intro name stack found
  obtain ⟨old, known, names, _⟩ := exists_of_sameTags same found
  rw [names, named name old known]

theorem mark_of_sameTags (same : before.SameTags after) (name : StackName) :
    after.mark name = before.mark name := by
  have tagged (cloud : Cloud) : cloud.mark name
      = ((cloud.provisioned.get? name).map fun stack => (stack.name, stack.tags)).bind
        fun entry => entry.2.get? Tag.deletionScheduled := by
    rw [mark]
    cases cloud.provisioned.get? name <;> rfl
  rw [tagged, tagged, same name]

theorem empty_named : ({} : Cloud).Named := by
  intro name stack found
  cases found

theorem insertStack_named {cloud : Cloud} (named : cloud.Named) (stack : Stack) :
    (cloud.insertStack stack).Named := by
  intro name other found
  rw [insertStack] at found
  by_cases same : name = stack.name
  · subst same
    rw [Table.get?_insert_self] at found
    cases found
    rfl
  · rw [Table.get?_insert_of_ne _ same] at found
    exact named name other found

theorem insertStack_unmarked {cloud : Cloud} {stack : Stack}
    (unmarked : ∀ name, cloud.mark name = none)
    (blank : stack.tags.get? Tag.deletionScheduled = none) (name : StackName) :
    (cloud.insertStack stack).mark name = none := by
  rw [mark, insertStack]
  by_cases same : name = stack.name
  · subst same
    rw [Table.get?_insert_self]
    exact blank
  · rw [Table.get?_insert_of_ne _ same]
    exact unmarked name

end Cloud

namespace Controller

variable {controller : Controller}

/-- Each pass finds the stacks as the one before left them, with their names and tags. -/
def IsRun (controller : Controller) (turns : List Turn) : Prop :=
  turns.IsChain fun earlier later =>
    (earlier.result controller).world.cloud.SameTags later.world.cloud

/-- No stack has a deletion time when the run starts. -/
def StartsUnmarked (turns : List Turn) : Prop :=
  ∀ turn ∈ turns.head?, turn.world.cloud.Named ∧ ∀ name, turn.world.cloud.mark name = none

/-- One of the turns scheduled the deletion for this moment, at the end of its grace period, and
none behind it has updated the stack. -/
def Schedules (controller : Controller) (turns : List Turn) (name : StackName) (moment : Instant) :
    Prop :=
  ∃ before scheduling between, turns = before ++ scheduling :: between ∧
    .scheduleDeletion name moment ∈ (scheduling.result controller).granted ∧
    scheduling.now.plus? controller.grace = some moment ∧
    ∀ turn ∈ between, ∀ spec, .update spec ∈ (turn.result controller).granted → spec.name ≠ name

def Traced (controller : Controller) (turns : List Turn) (cloud : Cloud) : Prop :=
  ∀ name value, cloud.mark name = some value →
    ∃ moment, controller.Schedules turns name moment ∧ moment.secondText = value

theorem schedules_append {turns : List Turn} {name : StackName} {moment : Instant} {turn : Turn}
    (schedules : controller.Schedules turns name moment)
    (untouched : ∀ spec, .update spec ∈ (turn.result controller).granted → spec.name ≠ name) :
    controller.Schedules (turns ++ [turn]) name moment := by
  obtain ⟨before, scheduling, between, rfl, granted, ends, quiet⟩ := schedules
  refine ⟨before, scheduling, between ++ [turn], by simp, granted, ends, ?_⟩
  intro other member
  rcases List.mem_append.mp member with old | last
  · exact quiet other old
  · rw [List.mem_singleton.mp last]
    exact untouched

theorem traced_turn {turns : List Turn} {turn : Turn}
    (traced : controller.Traced turns turn.world.cloud) :
    controller.Traced (turns ++ [turn]) (turn.result controller).world.cloud := by
  intro name value marked
  rcases pass_mark marked with ⟨moment, granted, ends, written⟩ | ⟨old, untouched⟩
  · exact ⟨moment, ⟨turns, turn, [], rfl, granted, ends, nofun⟩, written⟩
  · obtain ⟨moment, schedules, written⟩ := traced name value old
    exact ⟨moment, schedules_append schedules untouched, written⟩

/-- What holds of the first world of a run, survives what happens between two passes and is kept by
every pass, holds before the last pass. It may speak of the passes so far. -/
theorem run_induction {R : World → World → Prop} {motive : List Turn → World → Prop}
    {earlier : List Turn} {turn : Turn}
    (run : (earlier ++ [turn]).IsChain fun first second =>
      R (first.result controller).world second.world)
    (start : ∀ first ∈ (earlier ++ [turn]).head?, motive [] first.world)
    (across : ∀ turns before after, R before after → motive turns before → motive turns after)
    (step : ∀ turns, ∀ passed ∈ earlier, motive turns passed.world →
      motive (turns ++ [passed]) (passed.result controller).world) : motive earlier turn.world := by
  -- From the last turn back: it left the world that this turn finds, up to what lies between.
  induction earlier using List.reverseRecOn generalizing turn with
  | nil => exact start turn rfl
  | append_singleton earlier last ih =>
      obtain ⟨front, _, between⟩ := List.isChain_append.mp run
      have left := between last (by simp) turn (by simp)
      have begun : ∀ first ∈ (earlier ++ [last]).head?, motive [] first.world := by
        intro first member
        exact start first (by cases earlier <;> simpa using member)
      have before := ih front begun fun turns passed member =>
        step turns passed (List.mem_append_left _ member)
      exact across _ _ _ left (step earlier last (by simp) before)

theorem run_invariant {R : World → World → Prop} {motive : World → Prop} {turns : List Turn}
    (run : turns.IsChain fun first second => R (first.result controller).world second.world)
    (start : ∀ first ∈ turns.head?, motive first.world)
    (across : ∀ before after, R before after → motive before → motive after)
    (step : ∀ turn ∈ turns, motive turn.world → motive (turn.result controller).world) :
    ∀ turn ∈ turns, motive turn.world := by
  induction turns with
  | nil => nofun
  | cons first rest ih =>
      obtain ⟨between, run⟩ := List.isChain_cons.mp run
      have here := start first rfl
      have left := step first (List.mem_cons_self ..) here
      have behind := ih run (fun second member => across _ _ (between second member) left)
        fun turn member => step turn (.tail _ member)
      intro turn member
      rcases List.mem_cons.mp member with rfl | later
      · exact here
      · exact behind turn later

theorem run_traced {earlier : List Turn} {turn : Turn} (run : controller.IsRun (earlier ++ [turn]))
    (start : StartsUnmarked (earlier ++ [turn])) :
    turn.world.cloud.Named ∧ controller.Traced earlier turn.world.cloud := by
  refine run_induction (R := fun before after => before.cloud.SameTags after.cloud)
    (motive := fun turns world => world.cloud.Named ∧ controller.Traced turns world.cloud)
    run ?_ ?_ ?_
  · intro first member
    obtain ⟨named, unmarked⟩ := start first member
    refine ⟨named, fun name value marked => ?_⟩
    rw [unmarked] at marked
    cases marked
  · rintro turns before after same ⟨named, traced⟩
    refine ⟨Cloud.named_of_sameTags same named, fun name value marked => ?_⟩
    rw [Cloud.mark_of_sameTags same] at marked
    exact traced name value marked
  · rintro turns passed _ ⟨named, traced⟩
    exact ⟨pass_named named, traced_turn traced⟩

/-- The times that the certificate tags of a stack state have passed. -/
def CertificatesExpired (stack : Stack) (now : Instant) : Prop :=
  ∀ id value, stack.tags.get? (Tag.certificateStart ++ id) = some value →
    value = Tag.keepIndefinitely ∨ ∃ moment, Stamp.strict value = .ok moment ∧ moment ≤ now

theorem certificatesExpired_of_orphan {stack : Stack} {orphan : ObservedStack} {now : Instant}
    (read : ObservedStack.ofStack stack = .ok orphan)
    (settled : orphan.hasPendingCertificates now = false) : CertificatesExpired stack now := by
  intro id value tagged
  obtain ⟨_, certified, _⟩ := ObservedStack.ofStack_eq_ok read
  obtain ⟨removal, stated, listed⟩ := Tags.certificates_get? certified tagged
  rw [Tags.readRemoval] at stated
  by_cases kept : value = Tag.keepIndefinitely
  · exact .inl kept
  · rw [if_neg kept] at stated
    obtain ⟨moment, timed, same⟩ := Attempt.map_eq_ok_iff.mp stated
    subst same
    have passed : ¬ now < moment := by
      have member := Table.mem_values_iff.mpr ⟨id, listed⟩
      rw [ObservedStack.hasPendingCertificates, List.any_eq_false] at settled
      simpa using settled _ member
    exact .inr ⟨moment, Tag.readTime_eq_ok timed, Instant.not_lt.mp passed⟩

/-- Whenever a pass of a run takes a stack away, no endpoint is placed on it, and either it was
listed as failed, or the times of its certificates have passed and so has the grace period since
the pass that scheduled its deletion, with no update of the stack in between. -/
theorem removal_after_grace (controller : Controller) (earlier later : List Turn) (turn : Turn)
    (name : StackName) (stack : Stack)
    (run : controller.IsRun (earlier ++ turn :: later))
    (start : StartsUnmarked (earlier ++ turn :: later))
    (plain : ∀ other ∈ earlier ++ turn :: later, ∃ moment,
      other.now.plus? controller.grace = some moment ∧ moment.HasPlainYear)
    (present : turn.world.cloud.provisioned.get? name = some stack)
    (absent : (turn.result controller).world.cloud.provisioned.get? name = none) :
    (∀ descriptor ∈ (turn.result controller).placement.descriptors,
      descriptor.stackName? = some name → descriptor.endpoints = []) ∧
    (stack.status.isFailed = true ∨ CertificatesExpired stack turn.now ∧
      ∃ before scheduling between moment, earlier = before ++ scheduling :: between ∧
        .scheduleDeletion name moment ∈ (scheduling.result controller).granted ∧
        scheduling.now.plus? controller.grace = some moment ∧ moment.wholeSecond ≤ turn.now ∧
        ∀ other ∈ between, ∀ spec,
          .update spec ∈ (other.result controller).granted → spec.name ≠ name) := by
  have cut : earlier ++ turn :: later = earlier ++ [turn] ++ later := by simp
  rw [cut] at run start
  -- What comes after the removal does not matter.
  have front : controller.IsRun (earlier ++ [turn]) := (List.isChain_append.mp run).1
  have begun : StartsUnmarked (earlier ++ [turn]) := by
    intro first member
    exact start first (by cases earlier <;> simpa using member)
  obtain ⟨named, traced⟩ := run_traced front begun
  obtain ⟨vacant, orphan, read, planned⟩ := pass_removal named present absent
  refine ⟨vacant, ?_⟩
  obtain ⟨observed, _, scheduled⟩ := ObservedStack.ofStack_eq_ok read
  rcases ObservedStack.planOrphan_delete planned with failed | ⟨due, stated, ripe, settled⟩
  · rw [observed] at failed
    exact .inl failed
  · refine .inr ⟨certificatesExpired_of_orphan read settled, ?_⟩
    rw [stated] at scheduled
    obtain ⟨value, tagged, dated⟩ := Tags.deletionScheduledAt_eq_some scheduled
    have marked : turn.world.cloud.mark name = some value := by
      rw [Cloud.mark, present]
      exact tagged
    obtain ⟨moment, ⟨before, scheduling, between, whole, granted, ends, quiet⟩, written⟩ :=
      traced name value marked
    obtain ⟨_, ends', year⟩ := plain scheduling (by simp [whole])
    rw [ends] at ends'
    cases ends'
    -- The tag is read back as the moment that was scheduled, without its fraction.
    rw [← written, Stamp.strict_secondText year] at dated
    cases dated
    exact ⟨before, scheduling, between, moment, whole, granted, ends,
      Instant.le_trans moment.wholeSecond_le_stamped ripe, quiet⟩

def abandoned : Stack where
  name := "old"
  status := .createComplete
  dnsName := none
  targetGroup := none
  createdAt := ⟨1767225600, 0⟩
  tags := (Tags.ownedBy "shop").insert Tag.scheme "internal"

def disused : Turn where
  world := { cloud := ({} : Cloud).insertStack abandoned }
  circumstances := { snapshot := [], files := {}, now := ⟨1772366400, 0⟩, createdAt := ⟨0, 0⟩ }

def overdue (controller : Controller) : Turn where
  world := (disused.result controller).world
  circumstances := { disused.circumstances with now := ⟨1772370000, 0⟩ }

def hourly : Controller where
  settings := { clusterId := "shop" }
  grace := ⟨3600 * Span.billion⟩
  minAge := ⟨360 * Span.billion⟩
  freshName := numberedName "shop"

theorem overdue_removal_after_grace :
    ∃ stack, (overdue hourly).world.cloud.provisioned.get? "old" = some stack ∧
      ((overdue hourly).result hourly).world.cloud.provisioned.get? "old" = none ∧
      (stack.status.isFailed = true ∨ CertificatesExpired stack (overdue hourly).now ∧
        ∃ before scheduling between moment, [disused] = before ++ scheduling :: between ∧
          .scheduleDeletion "old" moment ∈ (scheduling.result hourly).granted ∧
          scheduling.now.plus? hourly.grace = some moment ∧
          moment.wholeSecond ≤ (overdue hourly).now ∧
          ∀ other ∈ between, ∀ spec,
            .update spec ∈ (other.result hourly).granted → spec.name ≠ "old") := by
  have present : ((overdue hourly).world.cloud.provisioned.get? "old").isSome = true := by
    decide +kernel
  have absent : ((overdue hourly).result hourly).world.cloud.provisioned.get? "old" = none := by
    decide +kernel
  obtain ⟨stack, found⟩ := Option.isSome_iff_exists.mp present
  have run : hourly.IsRun ([disused] ++ overdue hourly :: []) :=
    .cons_cons (Cloud.sameTags_refl _) (.singleton _)
  have start : StartsUnmarked ([disused] ++ overdue hourly :: []) := by
    rintro first ⟨⟩
    exact ⟨Cloud.insertStack_named Cloud.empty_named abandoned,
      Cloud.insertStack_unmarked (fun _ => rfl) (by decide +kernel)⟩
  have plain : ∀ other ∈ [disused] ++ overdue hourly :: [], ∃ moment,
      other.now.plus? hourly.grace = some moment ∧ moment.HasPlainYear := by
    intro other member
    rcases List.mem_cons.mp member with rfl | last
    · exact ⟨⟨1772370000, 0⟩, by decide +kernel, by decide +kernel, by decide +kernel⟩
    · rw [List.mem_singleton.mp last]
      exact ⟨⟨1772373600, 0⟩, by decide +kernel, by decide +kernel, by decide +kernel⟩
  have removal := removal_after_grace hourly [disused] [] (overdue hourly) "old" stack run start
    plain found absent
  exact ⟨stack, found, absent, removal.2⟩

end Controller

end IngressControl
