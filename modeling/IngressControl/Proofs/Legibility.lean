import IngressControl.Proofs.Expiry
import IngressControl.Proofs.Pass.Blame
import IngressControl.Proofs.Pass.Legibility
/-!
Runs of passes that start without stacks, and how the controller reads what it wrote.

The tags of a stack are all that one pass leaves for the next. The invariant of a run is that every
stack can be read from them, has an owner just when it is not shared, keeps a certificate, and has
removal times with years of four digits. It holds after every single request, so that a pass that
is broken off leaves it too, and no pass has a problem with tags to report.
-/

namespace IngressControl

namespace Cloud

theorem everywhere_of_sameTags {Good : Stack → Prop} {before after : Cloud}
    (congr : ∀ stack other : Stack, stack.tags = other.tags → Good other → Good stack)
    (same : before.SameTags after) (good : before.Everywhere Good) : after.Everywhere Good := by
  intro name stack found
  obtain ⟨old, known, _, tagged⟩ := exists_of_sameTags same found
  exact congr stack old tagged (good name old known)

theorem dated_of_sameTags {before after : Cloud} (same : before.SameTags after)
    (dated : before.Everywhere Stack.Dated) : after.Everywhere Stack.Dated :=
  everywhere_of_sameTags (fun _ _ tagged => Stack.dated_congr (congrArg Tags.certificates tagged))
    same dated

theorem insertStack_everywhere {Good : Stack → Prop} {cloud : Cloud} {stack : Stack}
    (others : cloud.Everywhere Good) (good : Good stack) :
    (cloud.insertStack stack).Everywhere Good := by
  intro name other found
  rw [insertStack] at found
  by_cases same : name = stack.name
  · subst same
    rw [Table.get?_insert_self] at found
    exact Option.some.inj found ▸ good
  · rw [Table.get?_insert_of_ne _ same] at found
    exact others name other found

theorem performs_front {createdAt : Instant} {start cloud : Cloud}
    {front requests : List StackRequest} (performs : Performs createdAt start requests cloud)
    (first : front <+: requests) : ∃ middle, Performs createdAt start front middle := by
  induction performs with
  | none =>
      rw [List.prefix_nil.mp first]
      exact ⟨start, .none⟩
  | next performs granted ih =>
      rcases List.prefix_concat_iff.mp first with whole | earlier
      · rw [whole]
        exact ⟨_, performs.next granted⟩
      · exact ih earlier

end Cloud

namespace Controller

variable {controller : Controller} {turn : Turn} {turns : List Turn}

theorem ends_plainly (plain : controller.EndsPlainly turns) : ∀ turn ∈ turns, ∀ moment,
    turn.now.plus? controller.grace = some moment → moment.HasPlainYear := by
  intro turn member moment ended
  obtain ⟨later, ends, year⟩ := plain turn member
  rwa [← Option.some.inj (ends.symm.trans ended)]

/-- The cloud at a moment of a turn, when the first of the granted requests are carried out. -/
def Reaches (controller : Controller) (turn : Turn) (cloud : Cloud) : Prop :=
  ∃ requests, requests <+: (turn.result controller).granted ∧
    Cloud.Performs turn.circumstances.createdAt turn.world.cloud requests cloud

theorem exists_reaches {requests : List StackRequest}
    (first : requests <+: (turn.result controller).granted) :
    ∃ cloud, Cloud.Performs turn.circumstances.createdAt turn.world.cloud requests cloud := by
  rcases controller.pass_cases turn.circumstances turn.world with
    ⟨_, idle, _⟩ | ⟨_, _, _, _, _, grounded⟩
  · have blank : requests <+: [] := idle ▸ first
    rw [List.prefix_nil.mp blank]
    exact ⟨_, .none⟩
  · obtain ⟨cloud, performs, _⟩ := grounded.performed
    exact Cloud.performs_front performs first

/-- At every moment of the turn all stacks are intact, and it reports no problem about tags. -/
structure Legible (controller : Controller) (turn : Turn) : Prop where
  throughout : ∀ cloud, controller.Reaches turn cloud → cloud.Everywhere Stack.Intact
  left : (turn.result controller).world.cloud.Everywhere Stack.Intact
  unblamed : ∀ report, (turn.result controller).outcome = .ok report →
    ∀ problem ∈ report.problems, problem.failure.kind ≠ "invalid_tag"

structure Inherits (world : World) : Prop where
  intact : world.cloud.Everywhere Stack.Intact
  dated : world.cloud.Everywhere Stack.Dated

variable (recordable : ListsRecordable turn.circumstances turn.world)
  (ends : ∀ moment, turn.now.plus? controller.grace = some moment → moment.HasPlainYear)

include recordable ends

theorem inherits_turn (inherits : Inherits turn.world) :
    Inherits (turn.result controller).world where
  intact := pass_everywhere
    (pass_leaves_intact ends recordable inherits.intact inherits.dated) inherits.intact
  dated := pass_everywhere (pass_leaves_dated ends inherits.dated) inherits.dated

theorem legible_turn (inherits : Inherits turn.world) : controller.Legible turn := by
  have leaves : ∀ request ∈ (turn.result controller).granted, request.Leaves Stack.Intact :=
    pass_leaves_intact ends recordable inherits.intact inherits.dated
  refine ⟨?_, (inherits_turn recordable ends inherits).intact, ?_⟩
  · rintro cloud ⟨requests, first, performs⟩
    exact Cloud.performs_everywhere (fun request member => leaves request (first.subset member))
      inherits.intact performs
  · intro report done problem member
    rcases pass_blames done member with other | ⟨listed, listing, blamed⟩
    · exact Failure.isUntagged_iff.mp other
    · rw [Placement.unreadable_of_intact (listed_everywhere inherits.intact listing)] at blamed
      cases blamed

omit recordable ends

/-- In a run that starts without stacks the controller can read all its stacks at every moment, and
no pass reports a problem about tags. -/
theorem run_legible (controller : Controller) (turns : List Turn) (run : controller.IsRun turns)
    (empty : ∀ first ∈ turns.head?, first.world.cloud.provisioned = {})
    (recordable : ∀ turn ∈ turns, ListsRecordable turn.circumstances turn.world)
    (plain : controller.EndsPlainly turns) : ∀ turn ∈ turns, controller.Legible turn := by
  have ends := ends_plainly plain
  have inherits : ∀ turn ∈ turns, Inherits turn.world := by
    refine run_invariant (R := fun before after => before.cloud.SameTags after.cloud) run ?_ ?_ ?_
    · intro first member
      exact ⟨Cloud.everywhere_of_empty (empty first member),
        Cloud.everywhere_of_empty (empty first member)⟩
    · rintro before after same ⟨intact, dated⟩
      exact ⟨Cloud.everywhere_of_sameTags (fun _ _ => Stack.intact_congr) same intact,
        Cloud.dated_of_sameTags same dated⟩
    · exact fun turn member => inherits_turn (recordable turn member) (ends turn member)
  exact fun turn member =>
    legible_turn (recordable turn member) (ends turn member) (inherits turn member)

theorem listsRecordable_of_current {circumstances : Circumstances} {world : World}
    (unlisted : world.orchestrator.manifest = none)
    (shared : ∀ endpoint ∈ world.orchestrator.current,
      endpoint.webAcl = none ∧ endpoint.shared = true) : ListsRecordable circumstances world := by
  intro endpoints orchestrator listed endpoint member
  obtain ⟨_, _, listed⟩ := Attempt.bind_eq_ok_iff.mp listed
  rw [Orchestrator.reload, unlisted] at listed
  cases listed
  obtain ⟨unprotected, sharing⟩ := shared endpoint member
  constructor
  · rw [unprotected]
    simp
  · intro alone
    rw [sharing] at alone
    cases alone

theorem parted_legible :
    steady.Legible joined ∧ steady.Legible parted ∧ steady.Legible hourAfter := by
  have recordable : ∀ turn ∈ [joined, parted, hourAfter],
      ListsRecordable turn.circumstances turn.world := by
    intro turn member
    simp only [List.mem_cons, List.not_mem_nil, or_false] at member
    rcases member with rfl | rfl | rfl
    · exact listsRecordable_of_current rfl (by decide +kernel)
    · refine listsRecordable_of_current ?_ ?_ <;>
        simp only [parted, Turn.result, pass, process, Placement.ofStacks_eq_insertion] <;>
        decide +kernel
    · refine listsRecordable_of_current ?_ ?_ <;>
        simp only [hourAfter, parted, Turn.result, pass, process,
          Placement.ofStacks_eq_insertion] <;>
        decide +kernel
  have empty : ∀ first ∈ [joined, parted, hourAfter].head?, first.world.cloud.provisioned = {} := by
    rintro first ⟨⟩
    rfl
  have legible := run_legible steady [joined, parted, hourAfter] parted_isRun empty recordable
    parted_endsPlainly
  exact ⟨legible joined (by simp), legible parted (by simp), legible hourAfter (by simp)⟩

end Controller

end IngressControl
