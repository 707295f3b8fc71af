import IngressControl.Proofs.Pass.Overhaul
import IngressControl.Proofs.Pass.Resolution
import IngressControl.Proofs.Placement.Soundness
import IngressControl.Proofs.Placement.Stacks
/-!
How the problems of a pass are scoped.

The first letter of a scope tells the stage that has reported the problem: endpoints, alarms, stacks,
new load balancers, target groups and instances. So the problems that one stage reports can be told
from those of all others. A stack that cannot be read is named once while stacks are placed, and
afterwards only load balancers that exist are named by their stacks.
-/

namespace IngressControl

open Attempt

theorem head?_scope {lead : String} {letter : Char} (starts : lead.toList.head? = some letter)
    (rest : String) : (lead ++ rest).toList.head? = some letter := by
  rw [String.toList_append, List.head?_append, starts, Option.some_or]

theorem scope_ne {scope other : String} {letter letter' : Char}
    (starts : scope.toList.head? = some letter) (starts' : other.toList.head? = some letter')
    (differs : letter ≠ letter') : scope ≠ other := by
  rintro rfl
  exact differs (Option.some.inj (starts.symm.trans starts'))

def BeginIn (letters : List Char) (problems : List Problem) : Prop :=
  ∀ problem ∈ problems, ∃ letter ∈ letters, problem.scope.toList.head? = some letter

section BeginIn

variable {letters : List Char} {letter : Char} {problems first second : List Problem}
  {problem : Problem}

theorem beginIn_append (left : BeginIn letters first) (right : BeginIn letters second) :
    BeginIn letters (first ++ second) :=
  List.forall_mem_append.mpr ⟨left, right⟩

theorem beginIn_concat (left : BeginIn letters problems) (member : letter ∈ letters)
    (last : problem.scope.toList.head? = some letter) : BeginIn letters (problems ++ [problem]) :=
  beginIn_append left (List.forall_mem_singleton.mpr ⟨letter, member, last⟩)

theorem beginIn_mono {more : List Char} (begins : BeginIn letters problems)
    (included : letters ⊆ more) : BeginIn more problems := by
  intro problem member
  obtain ⟨letter, listed, starts⟩ := begins problem member
  exact ⟨letter, included listed, starts⟩

theorem filter_of_beginIn {scope : String} (begins : BeginIn letters problems)
    (starts : scope.toList.head? = some letter) (other : letter ∉ letters) :
    (problems.filter fun problem => problem.scope = scope) = [] := by
  refine List.filter_eq_nil_iff.mpr fun problem member => ?_
  obtain ⟨found, listed, starts'⟩ := begins problem member
  rw [decide_eq_true_eq]
  refine scope_ne starts' starts ?_
  rintro rfl
  exact other listed

end BeginIn

theorem ofEndpoint_head? (id : String) (failure : Failure) :
    (Problem.ofEndpoint id failure).scope.toList.head? = some 'e' := head?_scope (by decide) id

def scopedAt (name : StackName) (problems : List Problem) : List Problem :=
  problems.filter fun problem => problem.scope = "stack " ++ name

theorem scopedAt_append (name : StackName) (first second : List Problem) :
    scopedAt name (first ++ second) = scopedAt name first ++ scopedAt name second :=
  List.filter_append ..

theorem scopedAt_of_beginIn {letters : List Char} {problems : List Problem}
    (begins : BeginIn letters problems) (other : 's' ∉ letters) (name : StackName) :
    scopedAt name problems = [] :=
  filter_of_beginIn begins (head?_scope (by decide) name) other

theorem Resolution.ofEndpoints_beginIn {snapshot : List Certificate} {localDomain : String}
    {now : Instant} {endpoints : List Endpoint} {resolution result : Resolution}
    (begins : BeginIn ['e'] resolution.problems)
    (resolved : ofEndpoints snapshot localDomain now resolution endpoints = .ok result) :
    BeginIn ['e'] result.problems := by
  induction endpoints generalizing resolution with
  | nil =>
      cases resolved
      exact begins
  | cons endpoint rest ih =>
      obtain ⟨findings, _, resolved⟩ := bind_eq_ok_iff.mp resolved
      refine ih (beginIn_append begins fun problem member => ?_) resolved
      refine ⟨'e', .head _, ?_⟩
      rw [Findings.problems] at member
      split at member
      · rw [List.mem_singleton.mp member]
        exact ofEndpoint_head? ..
      · obtain ⟨miss, _, rfl⟩ := List.mem_map.mp member
        exact ofEndpoint_head? ..

namespace Placement

variable {policy : PlacementPolicy} {alarms : Option AlarmSet} {now : Instant}

theorem ofStacks_refusals (policy : PlacementPolicy) (alarms : Option AlarmSet) (now : Instant)
    (listed : List Stack) (endpoints : List ResolvedEndpoint) :
    ∃ refusals, (ofStacks policy listed endpoints alarms now).problems
      = unreadable listed ++ refusals ∧ BeginIn ['e'] refusals := by
  apply placement_induction fun _ placement =>
    ∃ refusals, placement.problems = unreadable listed ++ refusals ∧ BeginIn ['e'] refusals
  · exact ⟨[], by simp [seeded], nofun⟩
  · rintro earlier resolved placement _ ⟨refusals, whole, begins⟩
    rw [next]
    split
    · exact ⟨refusals, whole, begins⟩
    · rename_i failure _
      refine ⟨refusals ++ [Problem.ofEndpoint resolved.endpoint.id.text failure], ?_,
        beginIn_concat begins (.head _) (ofEndpoint_head? ..)⟩
      simp only [whole, List.append_assoc]

theorem mem_unreadable {listed : List Stack} {problem : Problem} :
    problem ∈ unreadable listed ↔ ∃ stack ∈ listed, ∃ failure,
      ObservedStack.ofStack stack = .error failure ∧
        problem = Problem.ofStack stack.name failure := by
  simp only [unreadable, List.mem_filterMap]
  constructor
  · rintro ⟨stack, member, unread⟩
    cases outcome : ObservedStack.ofStack stack with
    | ok observed =>
        rw [outcome] at unread
        cases unread
    | error failure =>
        rw [outcome] at unread
        exact ⟨stack, member, failure, outcome, (Option.some.inj unread).symm⟩
  · rintro ⟨stack, member, failure, unread, rfl⟩
    exact ⟨stack, member, by rw [unread]⟩

theorem ofStacks_beginIn (listed : List Stack) (endpoints : List ResolvedEndpoint) :
    BeginIn ['e', 's'] (ofStacks policy listed endpoints alarms now).problems := by
  obtain ⟨refusals, whole, begins⟩ := ofStacks_refusals policy alarms now listed endpoints
  rw [whole]
  refine beginIn_append (fun problem member => ?_) (beginIn_mono begins (by simp))
  obtain ⟨stack, _, failure, _, rfl⟩ := mem_unreadable.mp member
  exact ⟨'s', by simp, head?_scope (by decide) stack.name⟩

theorem ofStack_scope_injective {first second : StackName}
    (same : "stack " ++ first = "stack " ++ second) : first = second := by
  have chars := congrArg String.toList same
  rw [String.toList_append, String.toList_append] at chars
  exact String.toList_inj.mp (List.append_cancel_left chars)

theorem ofStacks_scopedAt {listed : List Stack} (endpoints : List ResolvedEndpoint)
    (distinct : (listed.map Stack.name).Nodup) {stack : Stack} (member : stack ∈ listed)
    {failure : Failure} (unread : ObservedStack.ofStack stack = .error failure) :
    scopedAt stack.name (ofStacks policy listed endpoints alarms now).problems
      = [Problem.ofStack stack.name failure] := by
  obtain ⟨refusals, whole, begins⟩ := ofStacks_refusals policy alarms now listed endpoints
  rw [whole, scopedAt_append, scopedAt_of_beginIn begins (by decide), List.append_nil]
  apply filter_eq_singleton
  · -- Stacks of different names have problems of different scopes.
    refine List.pairwise_filterMap.mpr ((List.pairwise_map.mp distinct).imp ?_)
    intro first second apart problem noted problem' noted' both
    simp only [decide_eq_true_eq] at both
    have labelled {stack : Stack} {problem : Problem} (noted : problem ∈ unreadable [stack]) :
        problem.scope = "stack " ++ stack.name := by
      obtain ⟨other, only, failure, _, rfl⟩ := mem_unreadable.mp noted
      rw [List.mem_singleton.mp only]
      rfl
    have noted := labelled (List.mem_filterMap.mpr ⟨first, .head _, noted⟩)
    have noted' := labelled (List.mem_filterMap.mpr ⟨second, .head _, noted'⟩)
    have here := ofStack_scope_injective (noted.symm.trans both.1)
    have there := ofStack_scope_injective (noted'.symm.trans both.2)
    exact apart (here.trans there.symm)
  · exact mem_unreadable.mpr ⟨stack, member, failure, unread, rfl⟩
  · exact decide_eq_true rfl

end Placement

namespace StackWork

variable {policy : StackPolicy} {now : Instant}

theorem attended_beginIn {descriptors : List Descriptor} {dealings : List (Dealing DesiredAction)}
    (dealt : List.Forall₂ (Descriptor.Dealt policy now) descriptors dealings) :
    BeginIn ['n', 's'] (dealings.filterMap (Dealing.problem? policy)) := by
  intro problem noted
  obtain ⟨dealing, member, same⟩ := List.mem_filterMap.mp noted
  obtain ⟨failure, rfl⟩ := Dealing.exists_failure same
  obtain ⟨descriptor, _, dealt⟩ := Pairs.exists_left dealt member
  simp only [dealt.scope, Descriptor.scope]
  cases descriptor.stackName? with
  | none => exact ⟨'n', by simp, head?_scope (by decide) _⟩
  | some name => exact ⟨'s', by simp, head?_scope (by decide) name⟩

theorem disposed_beginIn {orphans : List ObservedStack} {dealings : List (Dealing OrphanAction)}
    (dealt : List.Forall₂ (ObservedStack.Dealt policy now) orphans dealings) :
    BeginIn ['s'] (dealings.filterMap (Dealing.problem? policy)) := by
  intro problem noted
  obtain ⟨dealing, member, same⟩ := List.mem_filterMap.mp noted
  obtain ⟨failure, rfl⟩ := Dealing.exists_failure same
  obtain ⟨orphan, _, dealt⟩ := Pairs.exists_left dealt member
  refine ⟨'s', by simp, ?_⟩
  simp only [dealt.scope]
  exact head?_scope (by decide) orphan.name

theorem scopedAt_attended {descriptors : List Descriptor} {dealings : List (Dealing DesiredAction)}
    (dealt : List.Forall₂ (Descriptor.Dealt policy now) descriptors dealings) {name : StackName}
    (unknown : ∀ descriptor ∈ descriptors, descriptor.stackName? ≠ some name) :
    scopedAt name (dealings.filterMap (Dealing.problem? policy)) = [] := by
  refine List.filter_eq_nil_iff.mpr fun problem noted => ?_
  obtain ⟨dealing, member, same⟩ := List.mem_filterMap.mp noted
  obtain ⟨failure, rfl⟩ := Dealing.exists_failure same
  obtain ⟨descriptor, wanted, dealt⟩ := Pairs.exists_left dealt member
  simp only [decide_eq_true_eq, dealt.scope, Descriptor.scope]
  cases named : descriptor.stackName? with
  | none =>
      have starts : ("new load balancer for " ++ descriptor.endpointsText).toList.head? = some 'n' :=
        head?_scope (by decide) _
      exact scope_ne starts (head?_scope (by decide) name) (show 'n' ≠ 's' by decide)
  | some other =>
      intro labelled
      rw [Placement.ofStack_scope_injective labelled] at named
      exact unknown descriptor wanted named

theorem scopedAt_disposed {orphans : List ObservedStack} {dealings : List (Dealing OrphanAction)}
    (dealt : List.Forall₂ (ObservedStack.Dealt policy now) orphans dealings) {name : StackName}
    (unknown : ∀ orphan ∈ orphans, orphan.name ≠ name) :
    scopedAt name (dealings.filterMap (Dealing.problem? policy)) = [] := by
  refine List.filter_eq_nil_iff.mpr fun problem noted => ?_
  obtain ⟨dealing, member, same⟩ := List.mem_filterMap.mp noted
  obtain ⟨failure, rfl⟩ := Dealing.exists_failure same
  obtain ⟨orphan, listed, dealt⟩ := Pairs.exists_left dealt member
  simp only [decide_eq_true_eq, dealt.scope]
  exact fun labelled => unknown orphan listed (Placement.ofStack_scope_injective labelled)

end StackWork

theorem StatusWork.write_beginIn {work : StatusWork} (dryRun : Bool) (address : String)
    (endpoint : Endpoint) (begins : BeginIn ['e'] work.problems) :
    BeginIn ['e'] (write dryRun address work endpoint).problems := by
  rw [write]
  split
  · exact begins
  · split
    · exact begins
    · split
      · exact begins
      · exact begins
      · exact beginIn_concat begins (.head _) (ofEndpoint_head? ..)

theorem StatusWork.reportAll_beginIn (debugs dryRun : Bool) (minAge : Span) (now : Instant)
    (work : StatusWork) (descriptors : List Descriptor) (begins : BeginIn ['e'] work.problems) :
    BeginIn ['e'] (reached (reportAll debugs dryRun minAge now work descriptors)).problems := by
  apply each_induction (motive := fun work : StatusWork => BeginIn ['e'] work.problems) _ work begins
  intro work after descriptor _ begins done
  rcases writeAll_cases done with rfl | ⟨_, _, _, _, _, rfl⟩ | rfl
  · exact begins
  · exact List.foldlRecOn (motive := fun work : StatusWork => BeginIn ['e'] work.problems) _ _
      begins fun work begins endpoint _ => write_beginIn _ _ endpoint begins
  · exact begins

namespace TargetWork

variable {dryRun : Bool} {work : TargetWork}

theorem syncGroup_beginIn (instances : KeySet InstanceId) (group : String)
    (begins : BeginIn ['t', 'i'] work.problems) :
    BeginIn ['t', 'i'] (syncGroup dryRun instances work group).problems := by
  refine syncGroup_induction (motive := fun current => BeginIn ['t', 'i'] current.problems)
    ?_ ?_ ?_ begins
  · exact fun _ failure _ begins =>
      beginIn_concat begins (.head _) (head?_scope (by decide) group)
  · intro _ _ _ _ done begins
    rw [(register_cases done).1]
    exact begins
  · intro _ _ _ _ done begins
    rw [(deregister_cases done).1]
    exact begins

theorem sync_beginIn (cluster : String) (listed : List Stack)
    (begins : BeginIn ['t', 'i'] work.problems) :
    BeginIn ['t', 'i'] (sync cluster dryRun work listed).problems :=
  sync_induction (motive := fun current => BeginIn ['t', 'i'] current.problems)
    (fun _ _ => beginIn_concat begins (.tail _ (.head _)) (head?_scope (by decide) cluster))
    (fun _ _ _ group _ begins => syncGroup_beginIn _ group begins) begins

end TargetWork

namespace Controller

variable {controller : Controller} {circumstances : Circumstances} {world : World}
  {report final : Report} {listed : List Stack} {placement : Placement}

theorem alarms_beginIn (controller : Controller) (orchestrator : Orchestrator) :
    BeginIn ['a'] (controller.alarms orchestrator).2 := by
  have labelled (space name : String) (failure : Failure) :
      BeginIn ['a'] [⟨"alarm config " ++ space ++ "/" ++ name, failure⟩] := by
    refine List.forall_mem_singleton.mpr ⟨'a', by simp, ?_⟩
    simp only [String.append_assoc]
    exact head?_scope (by decide) _
  rw [alarms]
  split
  · nofun
  · simp only
    split
    · split
      · nofun
      · exact labelled _ _ _
    · split
      · nofun
      · exact labelled _ _ _

/-- What the stages of the second half report, each in its place. -/
structure Stagewise (controller : Controller) (circumstances : Circumstances)
    (report : Report) (placement : Placement) (final : Report)
    (wanted statuses unwanted targets : List Problem) : Prop where
  whole : final.problems
    = report.problems ++ placement.problems ++ wanted ++ statuses ++ unwanted ++ targets
  attended : ∃ dealings, List.Forall₂ (Descriptor.Dealt
    (controller.stackPolicy circumstances.createdAt) circumstances.now) placement.desired dealings ∧
      wanted = dealings.filterMap
        (Dealing.problem? (controller.stackPolicy circumstances.createdAt))
  disposed : ∃ dealings, List.Forall₂ (ObservedStack.Dealt
    (controller.stackPolicy circumstances.createdAt) circumstances.now) placement.orphaned dealings ∧
      unwanted = dealings.filterMap
        (Dealing.problem? (controller.stackPolicy circumstances.createdAt))
  addressed : BeginIn ['e'] statuses
  routed : BeginIn ['t', 'i'] targets

theorem act_stagewise
    (done : (controller.act circumstances world report listed placement).outcome = .ok final) :
    ∃ wanted statuses unwanted targets, Stagewise controller circumstances report placement final
      wanted statuses unwanted targets := by
  obtain ⟨reconciled, statuses, cleaned, first, told, second, rfl⟩ := act_finished done
  obtain ⟨dealings, dealt, _, books⟩ :=
    (StackWork.attends_of_each StackWork.cloud first).dealings
  obtain ⟨dealings', dealt', _, books'⟩ :=
    (StackWork.disposes_of_each StackWork.cloud second).dealings
  have addressed := StatusWork.reportAll_beginIn circumstances.debugs controller.settings.dryRun
    controller.minAge circumstances.now { orchestrator := world.orchestrator } placement.desired
    (List.forall_mem_nil _)
  rw [statusWork] at told
  rw [told] at addressed
  exact ⟨_, _, _, _, rfl, ⟨dealings, dealt, books.problems⟩, ⟨dealings', dealt', books'.problems⟩,
    addressed, TargetWork.sync_beginIn _ _ (List.forall_mem_nil _)⟩

/-- What the second half adds is about endpoints, load balancers, target groups and instances. -/
theorem act_beginIn (placed : BeginIn ['e', 's'] placement.problems)
    (done : (controller.act circumstances world report listed placement).outcome = .ok final) :
    ∃ others, final.problems = report.problems ++ others ∧
      BeginIn ['e', 's', 'n', 't', 'i'] others := by
  obtain ⟨_, statuses, _, targets, stagewise⟩ := act_stagewise done
  obtain ⟨dealings, dealt, rfl⟩ := stagewise.attended
  obtain ⟨dealings', dealt', rfl⟩ := stagewise.disposed
  refine ⟨_, by simpa only [List.append_assoc] using stagewise.whole, ?_⟩
  refine beginIn_append (beginIn_mono placed (by simp)) ?_
  refine beginIn_append (beginIn_mono (StackWork.attended_beginIn dealt) (by simp)) ?_
  refine beginIn_append (beginIn_mono stagewise.addressed (by simp)) ?_
  refine beginIn_append (beginIn_mono (StackWork.disposed_beginIn dealt') (by simp)) ?_
  exact beginIn_mono stagewise.routed (by simp)

/-- A stack that belongs to no load balancer is not named by what follows the placement. -/
theorem act_scopedAt {letters : List Char} {name : StackName}
    (begins : BeginIn letters report.problems) (other : 's' ∉ letters)
    (unknown : ∀ descriptor ∈ placement.descriptors, descriptor.stackName? ≠ some name)
    (done : (controller.act circumstances world report listed placement).outcome = .ok final) :
    scopedAt name final.problems = scopedAt name placement.problems := by
  obtain ⟨_, statuses, _, targets, stagewise⟩ := act_stagewise done
  obtain ⟨dealings, dealt, rfl⟩ := stagewise.attended
  obtain ⟨dealings', dealt', rfl⟩ := stagewise.disposed
  have wanted : scopedAt name (dealings.filterMap
      (Dealing.problem? (controller.stackPolicy circumstances.createdAt))) = [] :=
    StackWork.scopedAt_attended dealt fun descriptor member =>
      unknown descriptor (List.mem_filter.mp member).1
  have unwanted : scopedAt name (dealings'.filterMap
      (Dealing.problem? (controller.stackPolicy circumstances.createdAt))) = [] := by
    refine StackWork.scopedAt_disposed dealt' fun orphan member same => ?_
    obtain ⟨descriptor, placed, existing⟩ := List.mem_filterMap.mp member
    refine unknown descriptor (List.mem_filter.mp placed).1 ?_
    rw [Descriptor.stackName?, existing, Option.map_some, same]
  simp only [stagewise.whole, scopedAt_append, scopedAt_of_beginIn begins other, wanted, unwanted,
    scopedAt_of_beginIn stagewise.addressed (by decide),
    scopedAt_of_beginIn stagewise.routed (by decide), List.nil_append, List.append_nil]

end Controller

end IngressControl
