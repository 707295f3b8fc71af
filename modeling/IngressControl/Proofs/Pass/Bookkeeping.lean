import Mathlib.Data.List.Forall2
import IngressControl.Pass.Basic
import IngressControl.Proofs.Pass.Stacks
/-!
How the work on stacks accounts for each load balancer, and that none depends on how another fared.

Every load balancer that is dealt with either succeeds, and is counted as what was planned for it,
or leaves one problem. Which of the two it is only the cloud says that is in force when its turn has
come, and that may be any other one before each step.
-/

namespace IngressControl

open Attempt

/-- How one load balancer was dealt with, and the work as it stood before that. -/
structure Dealing (Action : Type) where
  work : StackWork
  scope : String
  action : Action
  move : Move

namespace Dealing

variable {Action : Type} {policy : StackPolicy} {dealing : Dealing Action}

def request? (policy : StackPolicy) (dealing : Dealing Action) : Option StackRequest :=
  match dealing.move with
  | .request request => if policy.dryRun then none else some request
  | .nothing | .refuse _ => none

/-- What came of it: a request that was made is answered by the cloud in force, and without one the
cloud stays as it was. -/
def answer (policy : StackPolicy) (dealing : Dealing Action) : Except Failure Cloud :=
  match dealing.request? policy, dealing.move with
  | some request, _ => dealing.work.cloud.perform policy.createdAt request
  | none, .refuse failure => .error failure
  | none, _ => .ok dealing.work.cloud

def succeeded (policy : StackPolicy) (dealing : Dealing Action) : Bool :=
  (dealing.answer policy).isOk

def problem? (policy : StackPolicy) (dealing : Dealing Action) : Option Problem :=
  match dealing.answer policy with
  | .ok _ => none
  | .error failure => some ⟨dealing.scope, failure⟩

def leaves (policy : StackPolicy) (dealing : Dealing Action) : Cloud :=
  (dealing.answer policy).toOption.getD dealing.work.cloud

theorem answer_of_request {request : StackRequest} (made : dealing.request? policy = some request) :
    dealing.answer policy = dealing.work.cloud.perform policy.createdAt request := by
  rw [answer, made]

theorem succeeded_of_answer {cloud : Cloud} (answered : dealing.answer policy = .ok cloud) :
    dealing.succeeded policy = true := by
  rw [succeeded, answered]
  rfl

theorem failed_of_answer {failure : Failure} (answered : dealing.answer policy = .error failure) :
    dealing.succeeded policy = false := by
  rw [succeeded, answered]
  rfl

theorem problem?_of_ok {cloud : Cloud} (answered : dealing.answer policy = .ok cloud) :
    dealing.problem? policy = none := by
  rw [problem?, answered]

theorem problem?_of_error {failure : Failure} (answered : dealing.answer policy = .error failure) :
    dealing.problem? policy = some ⟨dealing.scope, failure⟩ := by
  rw [problem?, answered]

theorem exists_failure {problem : Problem} (noted : dealing.problem? policy = some problem) :
    ∃ failure, problem = ⟨dealing.scope, failure⟩ := by
  cases answered : dealing.answer policy with
  | ok cloud => exact nomatch (problem?_of_ok answered).symm.trans noted
  | error failure =>
      exact ⟨failure, Option.some.inj (noted.symm.trans (problem?_of_error answered))⟩

theorem filterMap_single {β : Type} (pick : Dealing Action → Option β) (dealing : Dealing Action) :
    [dealing].filterMap pick = (pick dealing).toList := by
  rw [List.filterMap_eq_flatMap_toList, List.flatMap_singleton]

end Dealing

structure Descriptor.Dealt (policy : StackPolicy) (now : Instant) (descriptor : Descriptor)
    (dealing : Dealing DesiredAction) : Prop where
  scope : dealing.scope = descriptor.scope
  planned : descriptor.plan now policy.grace = .ok dealing.action
  moved : descriptor.move policy (policy.freshName dealing.work.created) now dealing.action
    = .ok dealing.move

structure ObservedStack.Dealt (policy : StackPolicy) (now : Instant) (orphan : ObservedStack)
    (dealing : Dealing OrphanAction) : Prop where
  scope : dealing.scope = "stack " ++ orphan.name
  planned : orphan.planOrphan now policy.grace = .ok dealing.action
  moved : dealing.move = orphan.move dealing.action

theorem Descriptor.Dealt.sane {policy : StackPolicy} {now : Instant} {descriptor : Descriptor}
    {dealing : Dealing DesiredAction} (dealt : descriptor.Dealt policy now dealing)
    (succeeded : dealing.succeeded policy = true) : dealing.action ≠ .failed := by
  intro failed
  have moved := dealt.moved
  obtain ⟨failure, refused⟩ : ∃ failure, dealing.move = .refuse failure := by
    rw [failed, Descriptor.move] at moved
    cases found : descriptor.existing with
    | none =>
        rw [found] at moved
        exact ⟨_, (Except.ok.inj moved).symm⟩
    | some existing =>
        rw [found] at moved
        exact ⟨_, (Except.ok.inj moved).symm⟩
  have answered : dealing.answer policy = .error failure := by
    rw [Dealing.answer, Dealing.request?, refused]
  rw [Dealing.failed_of_answer answered] at succeeded
  cases succeeded

theorem ObservedStack.Dealt.succeeded_of_keep {policy : StackPolicy} {now : Instant}
    {orphan : ObservedStack} {dealing : Dealing OrphanAction}
    (dealt : orphan.Dealt policy now dealing) (kept : dealing.action = .keep) :
    dealing.succeeded policy = true := by
  have moved := dealt.moved
  rw [kept] at moved
  have answered : dealing.answer policy = .ok dealing.work.cloud := by
    rw [Dealing.answer, Dealing.request?, moved]
    rfl
  exact Dealing.succeeded_of_answer answered

namespace StackChanges

def wanted (changes : StackChanges) : Nat :=
  changes.created + changes.updated + changes.unchanged + changes.waiting

def unwanted (changes : StackChanges) : Nat := changes.scheduled + changes.deleted

theorem wanted_countDesired (changes : StackChanges) {action : DesiredAction}
    (sane : action ≠ .failed) : (changes.countDesired action).wanted = changes.wanted + 1 := by
  cases action with
  | failed => exact absurd rfl sane
  | create | wait | update _ | inSync => simp only [countDesired, wanted]; omega

theorem unwanted_countDesired (changes : StackChanges) (action : DesiredAction) :
    (changes.countDesired action).unwanted = changes.unwanted := by
  cases action <;> rfl

theorem unwanted_countOrphan (changes : StackChanges) {action : OrphanAction}
    (acts : action ≠ .keep) : (changes.countOrphan action).unwanted = changes.unwanted + 1 := by
  cases action with
  | keep => exact absurd rfl acts
  | delete | schedule _ => simp only [countOrphan, unwanted]; omega

theorem wanted_countOrphan (changes : StackChanges) (action : OrphanAction) :
    (changes.countOrphan action).wanted = changes.wanted := by
  cases action <;> rfl

end StackChanges

namespace StackWork

variable {α Action : Type} {policy : StackPolicy} {now : Instant} {work middle after : StackWork}
  {count : StackChanges → Action → StackChanges}

/-- The work has grown by precisely these dealings, in their order, and the last of them left its
cloud. -/
structure Books (policy : StackPolicy) (count : StackChanges → Action → StackChanges)
    (work : StackWork) (dealings : List (Dealing Action)) (after : StackWork) : Prop where
  requests : after.requests = work.requests ++ dealings.filterMap (Dealing.request? policy)
  granted : after.granted = work.granted
    ++ (dealings.filter (Dealing.succeeded policy)).filterMap (Dealing.request? policy)
  problems : after.problems = work.problems ++ dealings.filterMap (Dealing.problem? policy)
  changes : after.changes
    = ((dealings.filter (Dealing.succeeded policy)).map Dealing.action).foldl count work.changes
  cloud : after.cloud = (dealings.getLast?.map (Dealing.leaves policy)).getD work.cloud

theorem books_nil (work : StackWork) : Books policy count work [] work where
  requests := by simp
  granted := by simp
  problems := by simp
  changes := rfl
  cloud := rfl

theorem books_append {early late : List (Dealing Action)}
    (first : Books policy count work early middle) (second : Books policy count middle late after) :
    Books policy count work (early ++ late) after where
  requests := by rw [second.requests, first.requests, List.filterMap_append, List.append_assoc]
  granted := by
    rw [second.granted, first.granted, List.filter_append, List.filterMap_append, List.append_assoc]
  problems := by rw [second.problems, first.problems, List.filterMap_append, List.append_assoc]
  changes := by
    rw [second.changes, first.changes, List.filter_append, List.map_append, List.foldl_append]
  cloud := by
    rw [second.cloud, first.cloud, List.getLast?_append]
    cases late.getLast? <;> rfl

theorem books_succeeded {dealing : Dealing Action}
    (answered : dealing.answer policy = .ok after.cloud)
    (requests : after.requests = work.requests ++ (dealing.request? policy).toList)
    (granted : after.granted = work.granted ++ (dealing.request? policy).toList)
    (problems : after.problems = work.problems)
    (changes : after.changes = count work.changes dealing.action) :
    Books policy count work [dealing] after := by
  have kept : [dealing].filter (Dealing.succeeded policy) = [dealing] := by
    simp [Dealing.succeeded_of_answer answered]
  refine ⟨?_, ?_, ?_, ?_, ?_⟩
  · rw [requests, Dealing.filterMap_single]
  · rw [granted, kept, Dealing.filterMap_single]
  · rw [problems, Dealing.filterMap_single, Dealing.problem?_of_ok answered]
    simp
  · rw [changes, kept]
    rfl
  · simp [Dealing.leaves, answered, Except.toOption]

theorem books_failed {dealing : Dealing Action} {failure : Failure}
    (answered : dealing.answer policy = .error failure)
    (requests : after.requests = work.requests ++ (dealing.request? policy).toList)
    (granted : after.granted = work.granted)
    (problems : after.problems = work.problems ++ [⟨dealing.scope, failure⟩])
    (changes : after.changes = work.changes) (cloud : after.cloud = dealing.work.cloud) :
    Books policy count work [dealing] after := by
  have dropped : [dealing].filter (Dealing.succeeded policy) = [] := by
    simp [Dealing.failed_of_answer answered]
  refine ⟨?_, ?_, ?_, ?_, ?_⟩
  · rw [requests, Dealing.filterMap_single]
  · rw [granted, dropped]
    simp
  · rw [problems, Dealing.filterMap_single, Dealing.problem?_of_error answered]
    rfl
  · rw [changes, dropped]
    rfl
  · simp [Dealing.leaves, answered, cloud, Except.toOption]

theorem issue_books (count : StackChanges → Action → StackChanges) (work : StackWork)
    (scope : String) (action : Action) (request : StackRequest) (live : policy.dryRun = false) :
    Books policy count work [⟨work, scope, action, .request request⟩]
      (work.issue policy scope (fun changes => count changes action) request) := by
  have made : Dealing.request? policy ⟨work, scope, action, .request request⟩ = some request := by
    simp [Dealing.request?, live]
  have noted : (work.note request).cloud = work.cloud := rfl
  rw [issue, noted]
  cases answered : work.cloud.perform policy.createdAt request with
  | ok cloud =>
      exact books_succeeded ((Dealing.answer_of_request made).trans answered) (by rw [made]; rfl)
        (by rw [made]; rfl) rfl rfl
  | error failure =>
      exact books_failed ((Dealing.answer_of_request made).trans answered) (by rw [made]; rfl) rfl
        rfl rfl rfl

theorem apply_books (policy : StackPolicy) (count : StackChanges → Action → StackChanges)
    (work : StackWork) (scope : String) (action : Action) (move : Move) :
    Books policy count work [⟨work, scope, action, move⟩]
      (work.apply policy scope (fun changes => count changes action) move) := by
  cases move with
  | nothing =>
      exact books_succeeded rfl (List.append_nil _).symm (List.append_nil _).symm rfl rfl
  | refuse failure => exact books_failed rfl (List.append_nil _).symm rfl rfl rfl rfl
  | request request =>
      rw [apply]
      cases dry : policy.dryRun with
      | true =>
          have unmade : Dealing.request? policy ⟨work, scope, action, .request request⟩ = none := by
            simp [Dealing.request?, dry]
          exact books_succeeded (by rw [Dealing.answer, unmade]; rfl) (by rw [unmade]; simp)
            (by rw [unmade]; simp) rfl rfl
      | false => exact issue_books count work scope action request dry

theorem reconcile_books {descriptor : Descriptor}
    (done : reconcile policy now work descriptor = .ok after) :
    ∃ dealing, dealing.work = work ∧ descriptor.Dealt policy now dealing ∧
      Books policy StackChanges.countDesired work [dealing] after := by
  obtain ⟨action, planned, done⟩ := bind_eq_ok_iff.mp done
  obtain ⟨move, moved, same⟩ := bind_eq_ok_iff.mp done
  cases same
  exact ⟨_, rfl, ⟨rfl, planned, moved⟩,
    apply_books policy StackChanges.countDesired work descriptor.scope action move⟩

theorem cleanUp_books {orphan : ObservedStack}
    (done : cleanUp policy now work orphan = .ok after) :
    ∃ dealing, dealing.work = work ∧ orphan.Dealt policy now dealing ∧
      Books policy StackChanges.countOrphan work [dealing] after := by
  obtain ⟨action, planned, same⟩ := bind_eq_ok_iff.mp done
  cases same
  exact ⟨_, rfl, ⟨rfl, planned, rfl⟩, apply_books policy StackChanges.countOrphan work
    ("stack " ++ orphan.name) action (orphan.move action)⟩

def under (weather : StackWork → Cloud) (work : StackWork) : StackWork :=
  { work with cloud := weather work }

def amid (weather : StackWork → Cloud) (step : StackWork → α → Except TimeOverflow StackWork)
    (work : StackWork) (item : α) : Except TimeOverflow StackWork :=
  step (work.under weather) item

/-- The items up to where the work came were dealt with one by one, each as the work stood and in
the cloud that was in force. -/
theorem each_books {Dealt : α → Dealing Action → Prop} (weather : StackWork → Cloud)
    (step : StackWork → α → Except TimeOverflow StackWork)
    (deals : ∀ work after item, step work item = .ok after →
      ∃ dealing, dealing.work = work ∧ Dealt item dealing ∧
        Books policy count work [dealing] after)
    (work : StackWork) (items : List α) :
    ∃ handled dealings, handled <+: items ∧ List.Forall₂ Dealt handled dealings ∧
      dealings.map Dealing.work = (fronts (amid weather step) work handled).map (under weather) ∧
      Books policy count work dealings (reached (each (amid weather step) work items)) ∧
      ∀ after, each (amid weather step) work items = .ok after → handled = items := by
  induction items generalizing work with
  | nil => exact ⟨[], [], List.prefix_rfl, .nil, rfl, books_nil work, fun _ _ => rfl⟩
  | cons item rest ih =>
      rw [each]
      cases stepped : amid weather step work item with
      | error overflow =>
          exact ⟨[], [], List.nil_prefix, .nil, rfl, books_nil work, fun _ done => by cases done⟩
      | ok after =>
          obtain ⟨dealing, stood, dealt, books⟩ := deals _ after item stepped
          -- The books do not mind which cloud they start from, as the dealing leaves its own.
          have here : Books policy count work [dealing] after :=
            ⟨books.requests, books.granted, books.problems, books.changes, books.cloud⟩
          obtain ⟨handled, dealings, front, pairs, stages, there, whole⟩ := ih after
          refine ⟨item :: handled, dealing :: dealings, List.prefix_cons_inj item |>.mpr front,
            .cons dealt pairs, ?_, books_append here there, fun final done => ?_⟩
          · rw [fronts, stepped, List.map_cons, List.map_cons, stages, stood]
          · rw [whole final done]

theorem reconcileAll_books (policy : StackPolicy) (now : Instant) (work : StackWork)
    (descriptors : List Descriptor) :
    ∃ handled dealings, handled <+: descriptors ∧
      List.Forall₂ (Descriptor.Dealt policy now) handled dealings ∧
      Books policy StackChanges.countDesired work dealings
        (reached (reconcileAll policy now work descriptors)) := by
  obtain ⟨handled, dealings, front, dealt, _, books, _⟩ := each_books StackWork.cloud
    (reconcile policy now) (fun _ _ _ => reconcile_books) work descriptors
  exact ⟨handled, dealings, front, dealt, books⟩

theorem cleanUpAll_books (policy : StackPolicy) (now : Instant) (work : StackWork)
    (orphans : List ObservedStack) :
    ∃ handled dealings, handled <+: orphans ∧
      List.Forall₂ (ObservedStack.Dealt policy now) handled dealings ∧
      Books policy StackChanges.countOrphan work dealings
        (reached (cleanUpAll policy now work orphans)) := by
  obtain ⟨handled, dealings, front, dealt, _, books, _⟩ := each_books StackWork.cloud
    (cleanUp policy now) (fun _ _ _ => cleanUp_books) work orphans
  exact ⟨handled, dealings, front, dealt, books⟩

theorem kept_of_books {tally : StackChanges → Nat} {dealings : List (Dealing Action)}
    (kept : ∀ changes action, tally (count changes action) = tally changes)
    (books : Books policy count work dealings after) : tally after.changes = tally work.changes := by
  rw [books.changes]
  generalize (dealings.filter (Dealing.succeeded policy)).map Dealing.action = actions
  generalize work.changes = changes
  induction actions generalizing changes with
  | nil => rfl
  | cons action rest ih => rw [List.foldl_cons, ih, kept]

/-- What is counted and what went wrong makes up what was dealt with, but for the idle plans that
are not counted. -/
theorem counted_of_books (tally : StackChanges → Nat) (idle : Action → Bool)
    {dealings : List (Dealing Action)} (books : Books policy count work dealings after)
    (counts : ∀ dealing ∈ dealings, dealing.succeeded policy = true → ∀ changes,
      tally (count changes dealing.action) = tally changes + if idle dealing.action then 0 else 1)
    (sound : ∀ dealing ∈ dealings, idle dealing.action = true →
      dealing.succeeded policy = true) :
    tally after.changes + dealings.countP (fun dealing => idle dealing.action)
        + after.problems.length
      = tally work.changes + work.problems.length + dealings.length := by
  have sum (changes : StackChanges) :
      tally (((dealings.filter (Dealing.succeeded policy)).map Dealing.action).foldl count changes)
          + dealings.countP (fun dealing => idle dealing.action)
          + (dealings.filterMap (Dealing.problem? policy)).length
        = tally changes + dealings.length := by
    clear books
    induction dealings generalizing changes with
    | nil => simp
    | cons dealing rest ih =>
        have ih := ih (fun other member => counts other (.tail _ member))
          (fun other member => sound other (.tail _ member))
        have counted := counts dealing (.head _)
        have sane := sound dealing (.head _)
        cases answered : dealing.answer policy with
        | ok cloud =>
            have succeeded := Dealing.succeeded_of_answer answered
            have next := ih (count changes dealing.action)
            rw [counted succeeded changes] at next
            have quiet := Dealing.problem?_of_ok answered
            simp only [List.filter_cons, succeeded, ↓reduceIte, List.map_cons, List.foldl_cons,
              List.countP_cons, List.filterMap_cons_none quiet, List.length_cons]
            cases resting : idle dealing.action <;> simp only [resting] at next ⊢ <;> simp at next ⊢ <;>
              omega
        | error failure =>
            have failed := Dealing.failed_of_answer answered
            have acting : idle dealing.action = false := by
              cases resting : idle dealing.action with
              | false => rfl
              | true => exact absurd (sane resting) (by simp [failed])
            have loud := Dealing.problem?_of_error answered
            have next := ih changes
            simp only [List.filter_cons, failed, Bool.false_eq_true, ↓reduceIte, List.countP_cons,
              acting, List.filterMap_cons_some loud, List.length_cons]
            omega
  have total := sum work.changes
  rw [books.changes, books.problems, List.length_append]
  omega

end StackWork

end IngressControl
