import IngressControl.Proofs.Pass.Resolution
import IngressControl.Proofs.Pass.Stages
import IngressControl.Proofs.Placement.Stacks
/-!
Which problems of a pass are about tags.

Every other cause that a pass can name has another label. So the problems that are about tags are
those of the listed stacks that cannot be read, and a pass that can read all of them reports none.
-/

namespace IngressControl

open Attempt

def Failure.IsUntagged (failure : Failure) : Prop :=
  ∀ key value reason, failure ≠ .invalidTag key value reason

theorem Failure.isUntagged_iff {failure : Failure} :
    failure.IsUntagged ↔ failure.kind ≠ "invalid_tag" := by
  cases failure <;> simp [IsUntagged, kind]

def Untagged (problems : List Problem) : Prop :=
  ∀ problem ∈ problems, problem.failure.IsUntagged

section Lists

variable {first second : List Problem} {problem : Problem}

theorem untagged_nil : Untagged [] := nofun

theorem untagged_append (left : Untagged first) (right : Untagged second) :
    Untagged (first ++ second) := by
  intro problem member
  rcases List.mem_append.mp member with early | late
  · exact left problem early
  · exact right problem late

theorem untagged_concat (left : Untagged first) (last : problem.failure.IsUntagged) :
    Untagged (first ++ [problem]) := by
  refine untagged_append left fun other member => ?_
  rw [List.mem_singleton.mp member]
  exact last

end Lists

namespace Findings

variable {snapshot : List Certificate} {now : Instant} {localDomain : String}

theorem problems_untagged {endpoint : Endpoint} {findings : Findings}
    (found : ofEndpoint snapshot localDomain now endpoint = .ok findings) :
    Untagged (findings.problems endpoint.id) := by
  intro problem member
  rw [problems, misses_ofEndpoint found] at member
  split at member
  · rw [List.mem_singleton.mp member]
    rintro _ _ _ ⟨⟩
  · rw [Endpoint.misses] at member
    split at member
    · cases member
    · obtain ⟨hostname, _, rfl⟩ := List.mem_map.mp member
      rintro _ _ _ ⟨⟩

end Findings

theorem Resolution.ofEndpoints_untagged {snapshot : List Certificate} {localDomain : String}
    {now : Instant} {endpoints : List Endpoint} {resolution result : Resolution}
    (untagged : Untagged resolution.problems)
    (resolved : ofEndpoints snapshot localDomain now resolution endpoints = .ok result) :
    Untagged result.problems := by
  induction endpoints generalizing resolution with
  | nil =>
      cases resolved
      exact untagged
  | cons endpoint rest ih =>
      obtain ⟨findings, found, resolved⟩ := bind_eq_ok_iff.mp resolved
      exact ih (untagged_append untagged (Findings.problems_untagged found)) resolved

namespace Orchestrator

variable {orchestrator : Orchestrator}

theorem permit_untagged (operation : String) :
    FailsAs Failure.IsUntagged (orchestrator.permit operation) := by
  rw [permit]
  split
  · exact failsAs_error (by rintro _ _ _ ⟨⟩)
  · exact failsAs_ok _

theorem reload_untagged (files : Files) :
    FailsAs Failure.IsUntagged (orchestrator.reload files) := by
  rw [reload]
  split
  · exact failsAs_ok _
  · refine failsAs_bind ?_ fun manifest => failsAs_ok _
    rw [loadManifest]
    split
    · rw [Manifest.ofText]
      split
      · exact failsAs_ok _
      · exact failsAs_error (by rintro _ _ _ ⟨⟩)
    · exact failsAs_error (by rintro _ _ _ ⟨⟩)

theorem list_untagged (files : Files) : FailsAs Failure.IsUntagged (orchestrator.list files) :=
  failsAs_bind (permit_untagged _) fun _ =>
    failsAs_bind (reload_untagged files) fun _ => failsAs_ok _

theorem updateStatus_untagged (id : EndpointId) (address : String) :
    FailsAs Failure.IsUntagged (orchestrator.updateStatus id address) := by
  refine failsAs_bind (permit_untagged _) fun _ => ?_
  refine failsAs_ite (fun _ => failsAs_error (by rintro _ _ _ ⟨⟩)) fun _ => ?_
  exact failsAs_ite (fun _ => failsAs_error (by rintro _ _ _ ⟨⟩)) fun _ => failsAs_ok _

theorem getResource_untagged (space name : String) :
    FailsAs Failure.IsUntagged (orchestrator.getResource space name) := by
  refine failsAs_bind (permit_untagged _) fun _ => ?_
  split
  · exact failsAs_ok _
  · exact failsAs_error (by rintro _ _ _ ⟨⟩)

end Orchestrator

theorem AlarmSet.ofResource_untagged (resource : ConfigResource) :
    FailsAs Failure.IsUntagged (AlarmSet.ofResource resource) := by
  have texts (rows : List (String × String)) :
      FailsAs Failure.IsUntagged (AlarmSet.ofTexts resource rows) := by
    induction rows with
    | nil => exact failsAs_ok _
    | cons row rest ih =>
        refine failsAs_bind ?_ fun alarms => failsAs_bind ih fun _ => failsAs_ok _
        rw [AlarmSet.ofText]
        split
        · exact failsAs_ok _
        · exact failsAs_error (by rintro _ _ _ ⟨⟩)
  exact texts _

namespace Placement

variable {policy : PlacementPolicy} {alarms : Option AlarmSet} {now : Instant}

theorem place_untagged (descriptors : List Descriptor) (resolved : ResolvedEndpoint) :
    FailsAs Failure.IsUntagged (place policy alarms now descriptors resolved) := by
  rw [place]
  split
  · rename_i failure refused
    rw [refusal?] at refused
    split at refused
    · cases refused
      exact failsAs_error (by rintro _ _ _ ⟨⟩)
    · split at refused
      · cases refused
        exact failsAs_error (by rintro _ _ _ ⟨⟩)
      · cases refused
  · split <;> exact failsAs_ok _

theorem ofStacks_problems (policy : PlacementPolicy) (alarms : Option AlarmSet) (now : Instant)
    (listed : List Stack) (endpoints : List ResolvedEndpoint) :
    ∃ others, (ofStacks policy listed endpoints alarms now).problems = unreadable listed ++ others ∧
      Untagged others := by
  apply placement_induction fun _ placement =>
    ∃ others, placement.problems = unreadable listed ++ others ∧ Untagged others
  · exact ⟨[], by simp [seeded], untagged_nil⟩
  · rintro earlier resolved placement _ ⟨others, whole, untagged⟩
    rw [next]
    split
    · exact ⟨others, whole, untagged⟩
    · rename_i failure refused
      refine ⟨others ++ [Problem.ofEndpoint resolved.endpoint.id.text failure], ?_,
        untagged_concat untagged (place_untagged _ _ failure refused)⟩
      simp only [whole, List.append_assoc]

end Placement

namespace Cloud

variable {cloud : Cloud}

theorem permit_untagged (operation : String) :
    FailsAs Failure.IsUntagged (cloud.permit operation) := by
  rw [permit]
  split
  · exact failsAs_error (by rintro _ _ _ ⟨⟩)
  · exact failsAs_ok _

theorem listStacks_untagged (cluster : String) :
    FailsAs Failure.IsUntagged (cloud.listStacks cluster) :=
  failsAs_bind (permit_untagged _) fun _ => failsAs_ok _

theorem perform_untagged (createdAt : Instant) (request : StackRequest) :
    FailsAs Failure.IsUntagged (cloud.perform createdAt request) := by
  cases request with
  | create spec =>
      refine failsAs_bind (permit_untagged _) fun _ => ?_
      exact failsAs_ite (fun _ => failsAs_error (by rintro _ _ _ ⟨⟩)) fun _ => failsAs_ok _
  | update spec =>
      refine failsAs_bind (permit_untagged _) fun _ => ?_
      cases cloud.provisioned.get? spec.name with
      | none => exact failsAs_error (by rintro _ _ _ ⟨⟩)
      | some stack =>
          exact failsAs_ite (fun _ => failsAs_error (by rintro _ _ _ ⟨⟩)) fun _ => failsAs_ok _
  | scheduleDeletion name moment =>
      refine failsAs_bind (permit_untagged _) fun _ => ?_
      cases cloud.provisioned.get? name with
      | none => exact failsAs_error (by rintro _ _ _ ⟨⟩)
      | some stack => exact failsAs_ok _
  | delete name =>
      refine failsAs_bind (permit_untagged _) fun _ => ?_
      cases cloud.provisioned.get? name with
      | none => exact failsAs_error (by rintro _ _ _ ⟨⟩)
      | some stack => exact failsAs_ok _

end Cloud

namespace StackWork

variable {policy : StackPolicy} {now : Instant} {work after : StackWork}

theorem issue_untagged (scope : String) (count : StackChanges → StackChanges)
    (request : StackRequest) (untagged : Untagged work.problems) :
    Untagged (work.issue policy scope count request).problems := by
  rw [issue]
  cases outcome : (work.note request).cloud.perform policy.createdAt request with
  | ok cloud => exact untagged
  | error failure =>
      exact untagged_concat untagged (Cloud.perform_untagged _ _ failure outcome)

theorem apply_untagged (scope : String) (count : StackChanges → StackChanges) {move : Move}
    (refused : ∀ failure, move = .refuse failure → failure.IsUntagged)
    (untagged : Untagged work.problems) :
    Untagged (work.apply policy scope count move).problems := by
  cases move with
  | nothing => exact untagged
  | refuse failure => exact untagged_concat untagged (refused failure rfl)
  | request request =>
      rw [apply]
      split
      · exact untagged
      · exact issue_untagged scope count request untagged

theorem reconcile_untagged {descriptor : Descriptor} (untagged : Untagged work.problems)
    (done : reconcile policy now work descriptor = .ok after) : Untagged after.problems := by
  obtain ⟨action, _, done⟩ := bind_eq_ok_iff.mp done
  obtain ⟨move, moved, same⟩ := bind_eq_ok_iff.mp done
  cases same
  refine apply_untagged _ _ ?_ untagged
  rintro failure rfl
  cases action with
  | create =>
      obtain ⟨_, _, same⟩ := bind_eq_ok_iff.mp moved
      cases same
  | update drift =>
      rw [Descriptor.move] at moved
      split at moved
      · obtain ⟨_, _, same⟩ := bind_eq_ok_iff.mp moved
        cases same
      · cases moved
        rintro _ _ _ ⟨⟩
  | failed =>
      rw [Descriptor.move] at moved
      split at moved
      · cases moved
        rintro _ _ _ ⟨⟩
      · cases moved
        rintro _ _ _ ⟨⟩
  | wait => cases moved
  | inSync => cases moved

theorem cleanUp_untagged {orphan : ObservedStack} (untagged : Untagged work.problems)
    (done : cleanUp policy now work orphan = .ok after) : Untagged after.problems := by
  obtain ⟨action, _, same⟩ := bind_eq_ok_iff.mp done
  cases same
  refine apply_untagged _ _ (fun failure refused => ?_) untagged
  cases action <;> cases refused

theorem reconcileAll_untagged {descriptors : List Descriptor} (untagged : Untagged work.problems) :
    Untagged (reached (reconcileAll policy now work descriptors)).problems := by
  have kept (work after : StackWork) (descriptor : Descriptor) (_ : descriptor ∈ descriptors)
      (untagged : Untagged work.problems)
      (done : reconcile policy now work descriptor = .ok after) : Untagged after.problems :=
    reconcile_untagged untagged done
  exact each_induction kept work untagged

theorem cleanUpAll_untagged {orphans : List ObservedStack} (untagged : Untagged work.problems) :
    Untagged (reached (cleanUpAll policy now work orphans)).problems := by
  have kept (work after : StackWork) (orphan : ObservedStack) (_ : orphan ∈ orphans)
      (untagged : Untagged work.problems)
      (done : cleanUp policy now work orphan = .ok after) : Untagged after.problems :=
    cleanUp_untagged untagged done
  exact each_induction kept work untagged

end StackWork

namespace StatusWork

theorem write_untagged {work : StatusWork} (dryRun : Bool) (address : String) (endpoint : Endpoint)
    (untagged : Untagged work.problems) :
    Untagged (write dryRun address work endpoint).problems := by
  rw [write]
  split
  · exact untagged
  · split
    · exact untagged
    · split
      · exact untagged
      · exact untagged
      · rename_i failure _ refused
        exact untagged_concat untagged
          (Orchestrator.updateStatus_untagged _ _ failure refused)

theorem reportAll_untagged {work : StatusWork} (debugs dryRun : Bool) (minAge : Span) (now : Instant)
    (descriptors : List Descriptor) (untagged : Untagged work.problems) :
    Untagged (reached (reportAll debugs dryRun minAge now work descriptors)).problems := by
  refine each_induction (motive := fun work : StatusWork => Untagged work.problems)
    (fun work after descriptor _ untagged done => ?_) work untagged
  rcases writeAll_cases done with rfl | ⟨_, address, _, _, _, rfl⟩ | rfl
  · exact untagged
  · exact List.foldlRecOn (motive := fun work : StatusWork => Untagged work.problems) _ _
      untagged fun work untagged endpoint _ => write_untagged _ _ endpoint untagged
  · exact untagged

end StatusWork

namespace TargetWork

variable {dryRun : Bool} {work : TargetWork}

theorem register_untagged (group : String) (missing : List InstanceId) :
    FailsAs Failure.IsUntagged (work.register dryRun group missing) := by
  rw [register]
  refine failsAs_ite (fun _ => failsAs_ok _) fun _ => ?_
  refine failsAs_ite (fun _ => failsAs_ok _) fun _ => failsAs_bind ?_ fun _ => failsAs_ok _
  exact failsAs_bind (Cloud.permit_untagged _) fun _ => failsAs_ok _

theorem deregister_untagged (group : String) (stale : List InstanceId) :
    FailsAs Failure.IsUntagged (work.deregister dryRun group stale) := by
  rw [deregister]
  refine failsAs_ite (fun _ => failsAs_ok _) fun _ => ?_
  refine failsAs_ite (fun _ => failsAs_ok _) fun _ => failsAs_bind ?_ fun _ => failsAs_ok _
  exact failsAs_bind (Cloud.permit_untagged _) fun _ => failsAs_ok _

theorem refuses_untagged {group : String} {failure : Failure}
    (refuses : Refuses dryRun work group failure) : failure.IsUntagged := by
  cases refuses with
  | list denied =>
      have listing : FailsAs Failure.IsUntagged (work.cloud.listTargets group) :=
        failsAs_bind (Cloud.permit_untagged _) fun _ => failsAs_ok _
      exact listing failure denied
  | register denied => exact register_untagged _ _ failure denied
  | deregister denied => exact deregister_untagged _ _ failure denied

theorem syncGroup_untagged (instances : KeySet InstanceId) (group : String)
    (untagged : Untagged work.problems) :
    Untagged (syncGroup dryRun instances work group).problems := by
  refine syncGroup_induction (motive := fun current => Untagged current.problems) ?_ ?_ ?_ untagged
  · exact fun _ _ refuses untagged => untagged_concat untagged (refuses_untagged refuses)
  · intro _ _ _ _ done untagged
    rw [(register_cases done).1]
    exact untagged
  · intro _ _ _ _ done untagged
    rw [(deregister_cases done).1]
    exact untagged

theorem sync_untagged (cluster : String) (listed : List Stack) (untagged : Untagged work.problems) :
    Untagged (sync cluster dryRun work listed).problems := by
  have listing : FailsAs Failure.IsUntagged (work.cloud.listInstances cluster) :=
    failsAs_bind (Cloud.permit_untagged _) fun _ => failsAs_ok _
  exact sync_induction (motive := fun current => Untagged current.problems)
    (fun failure denied => untagged_concat untagged (listing failure denied))
    (fun _ _ _ group _ untagged => syncGroup_untagged _ group untagged) untagged

end TargetWork

namespace Controller

variable {controller : Controller} {circumstances : Circumstances} {world : World}

theorem alarms_untagged (controller : Controller) (orchestrator : Orchestrator) :
    Untagged (controller.alarms orchestrator).2 := by
  rw [alarms]
  split
  · exact untagged_nil
  · simp only
    split
    · rename_i failure refused
      split
      · exact untagged_nil
      · exact untagged_concat untagged_nil (Orchestrator.getResource_untagged _ _ failure refused)
    · split
      · exact untagged_nil
      · rename_i failure refused
        exact untagged_concat untagged_nil (AlarmSet.ofResource_untagged _ failure refused)

theorem act_others {report final : Report} {listed : List Stack} {placement : Placement}
    (done : (controller.act circumstances world report listed placement).outcome = .ok final) :
    ∃ others, final.problems = report.problems ++ placement.problems ++ others ∧
      Untagged others := by
  obtain ⟨reconciled, statuses, cleaned, first, told, second, rfl⟩ := act_finished done
  refine ⟨reconciled.problems ++ (statuses.problems ++ (cleaned.problems
      ++ (controller.targetWork cleaned listed).problems)),
    by simp only [summary, List.append_assoc], ?_⟩
  have wanted : Untagged (reached (StackWork.reconcileAll
      (controller.stackPolicy circumstances.createdAt) circumstances.now
        { cloud := world.cloud, created := world.created } placement.desired)).problems :=
    StackWork.reconcileAll_untagged untagged_nil
  have addressed : Untagged (reached
      (controller.statusWork circumstances world placement)).problems :=
    StatusWork.reportAll_untagged _ _ _ _ _ untagged_nil
  have unwanted : Untagged (reached (StackWork.cleanUpAll
      (controller.stackPolicy circumstances.createdAt) circumstances.now
        { reconciled with problems := [] } placement.orphaned)).problems :=
    StackWork.cleanUpAll_untagged untagged_nil
  rw [first] at wanted
  rw [told] at addressed
  rw [second] at unwanted
  exact untagged_append wanted (untagged_append addressed (untagged_append unwanted
    (TargetWork.sync_untagged _ _ untagged_nil)))

/-- A problem that a pass reports is about tags only where a listed stack cannot be read. -/
theorem pass_blames {report : Report}
    (done : (controller.pass circumstances world).outcome = .ok report) {problem : Problem}
    (member : problem ∈ report.problems) : problem.failure.IsUntagged ∨
      ∃ listed, world.cloud.listStacks controller.settings.clusterId = .ok listed ∧
        problem ∈ Placement.unreadable listed := by
  rw [pass] at done
  split at done
  · cases done
  · split at done
    · rename_i failure refused
      cases done
      rw [List.mem_singleton.mp member]
      exact .inl (Orchestrator.list_untagged _ failure refused)
    · rename_i endpoints orchestrator _
      rw [process] at done
      split at done
      · cases done
      · rename_i resolution resolved
        simp only at done
        have before : Untagged (resolution.problems ++ (controller.alarms orchestrator).2) :=
          untagged_append (Resolution.ofEndpoints_untagged untagged_nil resolved)
            (alarms_untagged controller orchestrator)
        split at done
        · rename_i failure refused
          cases done
          exact .inl (untagged_concat before (Cloud.listStacks_untagged _ failure refused)
            problem member)
        · rename_i listed listing
          obtain ⟨others, whole, untagged⟩ := act_others done
          obtain ⟨refusals, placed, untagged'⟩ := Placement.ofStacks_problems
            controller.placementPolicy (controller.alarms orchestrator).1 circumstances.now listed
            resolution.resolved
          rw [whole, placed] at member
          rcases List.mem_append.mp member with front | behind
          · rcases List.mem_append.mp front with early | placing
            · exact .inl (before problem early)
            · rcases List.mem_append.mp placing with unread | refused
              · exact .inr ⟨listed, listing, unread⟩
              · exact .inl (untagged' problem refused)
          · exact .inl (untagged problem behind)

end Controller

end IngressControl
