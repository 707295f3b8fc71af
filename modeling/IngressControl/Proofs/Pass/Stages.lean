import IngressControl.Pass.Basic
import IngressControl.Proofs.Pass.Statuses
/-!
The stages of a pass: what it does to stacks, what it reports and how it can end.

Only the two stages that work on stacks touch them. Each stage adds to the problems of the ones
before, and a pass with both listings at hand ends early only for times that cannot be represented.
-/

namespace IngressControl

def Placement.Asks (policy : StackPolicy) (now : Instant) (placement : Placement)
    (request : StackRequest) : Prop :=
  (∃ descriptor ∈ placement.desired, descriptor.Asks policy now request) ∨
    ∃ orphan ∈ placement.orphaned, orphan.Asks policy now request

def Placement.Demands (policy : StackPolicy) (now : Instant) (placement : Placement)
    (request : StackRequest) : Prop :=
  ∃ descriptor ∈ placement.desired, descriptor.Asks policy now request

namespace TargetWork

variable {dryRun : Bool}

def OnlyTargets (before after : Cloud) : Prop := ∃ targets, after = { before with targets }

theorem onlyTargets_trans {first second third : Cloud} (left : OnlyTargets first second)
    (right : OnlyTargets second third) : OnlyTargets first third := by
  obtain ⟨_, rfl⟩ := left
  obtain ⟨targets, rfl⟩ := right
  exact ⟨targets, rfl⟩

/-- What belongs to both ways of changing registrations: with nothing to do the work stays as it is,
and a dry run leaves the cloud alone. -/
theorem changed_cases {work after : TargetWork} {idle : Bool} {change : Except Failure Cloud}
    {next : Cloud → TargetWork}
    (done : (if idle = true then pure work
      else if dryRun = true then pure work.cloud >>= fun cloud => pure (next cloud)
      else change >>= fun cloud => pure (next cloud)) = Except.ok after) :
    after = work ∨ ∃ cloud, (cloud = work.cloud ∨ change = .ok cloud) ∧ after = next cloud := by
  cases idle with
  | true => exact .inl (Except.ok.inj done).symm
  | false =>
      cases dryRun with
      | true => exact .inr ⟨work.cloud, .inl rfl, (Except.ok.inj done).symm⟩
      | false =>
          obtain ⟨cloud, changed, same⟩ := Attempt.bind_eq_ok_iff.mp done
          exact .inr ⟨cloud, .inr changed, (Except.ok.inj same).symm⟩

theorem register_cases {work after : TargetWork} {group : String} {missing : List InstanceId}
    (done : work.register dryRun group missing = .ok after) :
    after.problems = work.problems ∧ (after.cloud = work.cloud ∨ after.cloud = { work.cloud with
      targets := work.cloud.targets.insert group
        ((work.cloud.registered group).addAll missing) }) := by
  rw [register] at done
  rcases changed_cases done with rfl | ⟨cloud, rfl | changed, rfl⟩
  · exact ⟨rfl, .inl rfl⟩
  · exact ⟨rfl, .inl rfl⟩
  · have changed := Cloud.permit_bind_eq_ok changed
    exact ⟨rfl, .inr (Except.ok.inj changed).symm⟩

theorem deregister_cases {work after : TargetWork} {group : String} {stale : List InstanceId}
    (done : work.deregister dryRun group stale = .ok after) :
    after.problems = work.problems ∧ (after.cloud = work.cloud ∨ after.cloud = { work.cloud with
      targets := work.cloud.targets.modify group fun members =>
        members.filter fun member _ => !stale.contains member }) := by
  rw [deregister] at done
  rcases changed_cases done with rfl | ⟨cloud, rfl | changed, rfl⟩
  · exact ⟨rfl, .inl rfl⟩
  · exact ⟨rfl, .inl rfl⟩
  · have changed := Cloud.permit_bind_eq_ok changed
    exact ⟨rfl, .inr (Except.ok.inj changed).symm⟩

theorem register_onlyTargets {work after : TargetWork} {group : String} {missing : List InstanceId}
    (done : work.register dryRun group missing = .ok after) :
    OnlyTargets work.cloud after.cloud := by
  obtain ⟨_, same | changed⟩ := register_cases done
  · exact ⟨_, same⟩
  · exact ⟨_, changed⟩

theorem deregister_onlyTargets {work after : TargetWork} {group : String} {stale : List InstanceId}
    (done : work.deregister dryRun group stale = .ok after) :
    OnlyTargets work.cloud after.cloud := by
  obtain ⟨_, same | changed⟩ := deregister_cases done
  · exact ⟨_, same⟩
  · exact ⟨_, changed⟩

inductive Refuses (dryRun : Bool) (work : TargetWork) (group : String) (failure : Failure) : Prop
  | list : work.cloud.listTargets group = .error failure → Refuses dryRun work group failure
  | register {missing : List InstanceId} :
      work.register dryRun group missing = .error failure → Refuses dryRun work group failure
  | deregister {stale : List InstanceId} :
      work.deregister dryRun group stale = .error failure → Refuses dryRun work group failure

/-- What registering, deregistering and the report of a refusal keep, is kept when a group is brought
in line. -/
theorem syncGroup_induction {motive : TargetWork → Prop} {instances : KeySet InstanceId}
    {work : TargetWork} {group : String}
    (refused : ∀ work failure, Refuses dryRun work group failure → motive work →
      motive (work.addProblem ("target group " ++ group) failure))
    (registered : ∀ work after missing, (∀ machine ∈ missing, instances.contains machine = true) →
      work.register dryRun group missing = .ok after → motive work → motive after)
    (deregistered : ∀ work after stale, (∀ machine ∈ stale, instances.contains machine = false) →
      work.deregister dryRun group stale = .ok after → motive work → motive after)
    (start : motive work) : motive (syncGroup dryRun instances work group) := by
  rw [syncGroup]
  split
  · rename_i denied
    exact refused work _ (.list denied) start
  · simp only
    split
    · rename_i denied
      exact refused work _ (.register denied) start
    · rename_i middle done
      have kept : motive middle := by
        exact registered work middle _ (fun _ member => (KeySet.mem_without.mp member).1) done start
      split
      · rename_i denied
        exact refused middle _ (.deregister denied) kept
      · rename_i done
        exact deregistered middle _ _ (fun _ member => (KeySet.mem_without.mp member).2) done kept

theorem sync_induction {motive : TargetWork → Prop} {cluster : String} {work : TargetWork}
    {listed : List Stack}
    (unlisted : ∀ failure, work.cloud.listInstances cluster = .error failure →
      motive (work.addProblem ("instances of " ++ cluster) failure))
    (synced : ∀ instances, work.cloud.listInstances cluster = .ok instances →
      ∀ current, ∀ group ∈ routableGroups listed, motive current →
        motive (syncGroup dryRun (KeySet.ofList instances) current group))
    (start : motive work) : motive (sync cluster dryRun work listed) := by
  rw [sync]
  split
  · exact start
  · split
    · rename_i denied
      exact unlisted _ denied
    · rename_i instances known
      exact List.foldlRecOn (motive := motive) _ _ start fun current kept group routable =>
        synced instances known current group routable kept

theorem syncGroup_onlyTargets (instances : KeySet InstanceId) (work : TargetWork) (group : String) :
    OnlyTargets work.cloud (syncGroup dryRun instances work group).cloud := by
  refine syncGroup_induction (motive := fun current => OnlyTargets work.cloud current.cloud)
    (fun _ _ _ kept => kept) ?_ ?_ ⟨_, rfl⟩
  · exact fun current _ _ _ done kept => onlyTargets_trans kept (register_onlyTargets done)
  · exact fun current _ _ _ done kept => onlyTargets_trans kept (deregister_onlyTargets done)

theorem sync_onlyTargets (cluster : String) (work : TargetWork) (listed : List Stack) :
    OnlyTargets work.cloud (sync cluster dryRun work listed).cloud :=
  sync_induction (motive := fun current => OnlyTargets work.cloud current.cloud)
    (fun _ _ => ⟨_, rfl⟩)
    (fun _ _ current group _ kept => onlyTargets_trans kept (syncGroup_onlyTargets _ current group))
    ⟨_, rfl⟩

theorem sync_provisioned (cluster : String) (work : TargetWork) (listed : List Stack) :
    (sync cluster dryRun work listed).cloud.provisioned = work.cloud.provisioned := by
  have same : OnlyTargets work.cloud (sync cluster dryRun work listed).cloud :=
    sync_onlyTargets ..
  obtain ⟨targets, same⟩ := same
  rw [same]

end TargetWork

namespace Orchestrator

theorem list_keeps {before after : Orchestrator} {files : Files} {listed : List Endpoint}
    (done : before.list files = .ok (listed, after)) :
    ∃ endpoints resources, after = { before with endpoints, resources } := by
  obtain ⟨_, _, done⟩ := Attempt.bind_eq_ok_iff.mp done
  obtain ⟨loaded, reloaded, same⟩ := Attempt.bind_eq_ok_iff.mp done
  cases same
  rw [reload] at reloaded
  split at reloaded
  · cases reloaded
    exact ⟨_, _, rfl⟩
  · obtain ⟨manifest, _, same⟩ := Attempt.bind_eq_ok_iff.mp reloaded
    cases same
    exact ⟨_, _, rfl⟩

theorem list_statuses {before after : Orchestrator} {files : Files} {listed : List Endpoint}
    (done : before.list files = .ok (listed, after)) : after.statuses = before.statuses := by
  obtain ⟨_, _, rfl⟩ := list_keeps done
  rfl

end Orchestrator

namespace StackWork

variable {policy : StackPolicy} {now : Instant} {placement : Placement} {start : Cloud}
  {work : StackWork}

theorem reconcileAll_founded (cloud : Cloud) (created : Nat) :
    Founded policy (placement.Demands policy now) cloud
      (reached (reconcileAll policy now { cloud, created } placement.desired)) := by
  apply each_induction _ _ ⟨.none, nofun, nofun⟩
  intro work after descriptor member founded done
  exact reconcile_founded (fun _ asks => ⟨descriptor, member, asks⟩) founded done

theorem cleanUpAll_founded (founded : Founded policy (placement.Asks policy now) start work) :
    Founded policy (placement.Asks policy now) start
      (reached (cleanUpAll policy now work placement.orphaned)) := by
  apply each_induction _ work founded
  intro work after orphan member founded done
  exact cleanUp_founded (fun _ asks => .inr ⟨orphan, member, asks⟩) founded done

def Cleared (work : StackWork) : Prop :=
  ∀ name, .delete name ∈ work.granted → work.cloud.provisioned.get? name = none

theorem issue_cleared {request : StackRequest} {scope : String}
    {count : StackChanges → StackChanges} (uncreated : ∀ spec, request ≠ .create spec)
    (cleared : work.Cleared) : (work.issue policy scope count request).Cleared := by
  rw [issue]
  cases outcome : (work.note request).cloud.perform policy.createdAt request with
  | error failure => exact cleared
  | ok cloud =>
      intro name member
      rcases List.mem_append.mp member with old | last
      · exact Cloud.perform_absent outcome (cleared name old)
          fun spec same => absurd same (uncreated spec)
      · obtain rfl := List.mem_singleton.mp last
        obtain ⟨_, _, rfl⟩ := Cloud.perform_delete outcome
        exact Table.get?_erase_self ..

theorem cleanUp_cleared {after : StackWork} {orphan : ObservedStack} (cleared : work.Cleared)
    (done : cleanUp policy now work orphan = .ok after) : after.Cleared := by
  obtain ⟨action, _, same⟩ := Attempt.bind_eq_ok_iff.mp done
  cases same
  cases action with
  | keep => exact cleared
  | schedule moment =>
      rw [ObservedStack.move, apply]
      split
      · exact cleared
      · exact issue_cleared (by simp) cleared
  | delete =>
      rw [ObservedStack.move, apply]
      split
      · exact cleared
      · exact issue_cleared (by simp) cleared

theorem undeleted_of_demands
    (founded : Founded policy (placement.Demands policy now) start work) (name : StackName) :
    .delete name ∉ work.granted := by
  intro member
  obtain ⟨_, _, asks⟩ := founded.asked _ member
  cases asks

theorem cleared_of_demands (founded : Founded policy (placement.Demands policy now) start work) :
    work.Cleared :=
  fun name member => absurd member (undeleted_of_demands founded name)

theorem founded_of_demands (founded : Founded policy (placement.Demands policy now) start work) :
    Founded policy (placement.Asks policy now) start work :=
  ⟨founded.performed, fun request member => .inl (founded.asked request member),
    fun request member => .inl (founded.requested request member)⟩

theorem cleanUpAll_cleared (cleared : work.Cleared) :
    (reached (cleanUpAll policy now work placement.orphaned)).Cleared := by
  apply each_induction _ work cleared
  intro work after orphan _ cleared done
  exact cleanUp_cleared cleared done

end StackWork

namespace Controller

variable {controller : Controller} {circumstances : Circumstances} {world : World}
  {report : Report} {listed : List Stack} {placement : Placement}

/-- The stacks changed by nothing but the granted requests, and every request was asked for by the
placement. -/
structure Grounded (controller : Controller) (circumstances : Circumstances) (placement : Placement)
    (start : Cloud) (requests granted : List StackRequest) (after : Cloud) : Prop where
  performed : ∃ cloud, Cloud.Performs circumstances.createdAt start granted cloud ∧
    after.provisioned = cloud.provisioned
  asked : ∀ request ∈ granted, placement.Asks
    (controller.stackPolicy circumstances.createdAt) circumstances.now request
  requested : ∀ request ∈ requests, placement.Asks
    (controller.stackPolicy circumstances.createdAt) circumstances.now request

/-- A debug message about an address that is held back is to be shown and cannot be made up. -/
def Falters (controller : Controller) (circumstances : Circumstances) (placement : Placement) :
    Prop :=
  circumstances.debugs = true ∧
    ∃ descriptor ∈ placement.desired, descriptor.Immeasurable controller.minAge circumstances.now

def statusWork (controller : Controller) (circumstances : Circumstances) (world : World)
    (placement : Placement) : Except (TimeOverflow × StatusWork) StatusWork :=
  StatusWork.reportAll circumstances.debugs controller.settings.dryRun controller.minAge
    circumstances.now { orchestrator := world.orchestrator } placement.desired

theorem statusWork_ok (fluent : ¬ controller.Falters circumstances placement) (world : World) :
    ∃ statuses, controller.statusWork circumstances world placement = .ok statuses :=
  StatusWork.reportAll_ok
    (fun shown descriptor member immeasurable => fluent ⟨shown, descriptor, member, immeasurable⟩) _

theorem statusWork_of_falters (falters : controller.Falters circumstances placement)
    (world : World) :
    ∃ stop, controller.statusWork circumstances world placement = .error stop := by
  obtain ⟨shown, _, member, immeasurable⟩ := falters
  exact StatusWork.reportAll_immeasurable shown member immeasurable _

/-- How the second half of a pass goes: it is broken off while stacks are reconciled or while
addresses are reported, or it comes to clean up, and target groups are last. -/
inductive Acts (controller : Controller) (circumstances : Circumstances) (world : World)
    (listed : List Stack) (placement : Placement) (result : PassResult) : Prop
  | broken {overflow : TimeOverflow} {work : StackWork} :
      StackWork.reconcileAll (controller.stackPolicy circumstances.createdAt) circumstances.now
        { cloud := world.cloud, created := world.created } placement.desired
          = .error (overflow, work) →
      result.requests = work.requests → result.granted = work.granted →
      result.world.cloud = work.cloud → result.world.orchestrator = world.orchestrator →
        Acts controller circumstances world listed placement result
  | faltered {overflow : TimeOverflow} {work : StackWork} {statuses : StatusWork} :
      StackWork.reconcileAll (controller.stackPolicy circumstances.createdAt) circumstances.now
        { cloud := world.cloud, created := world.created } placement.desired = .ok work →
      controller.statusWork circumstances world placement = .error (overflow, statuses) →
      result.requests = work.requests → result.granted = work.granted →
      result.world.cloud = work.cloud → result.world.orchestrator = statuses.orchestrator →
        Acts controller circumstances world listed placement result
  | reported {work cleaned : StackWork} {statuses : StatusWork} :
      StackWork.reconcileAll (controller.stackPolicy circumstances.createdAt) circumstances.now
        { cloud := world.cloud, created := world.created } placement.desired = .ok work →
      controller.statusWork circumstances world placement = .ok statuses →
      reached (StackWork.cleanUpAll (controller.stackPolicy circumstances.createdAt)
        circumstances.now { work with problems := [] } placement.orphaned) = cleaned →
      result.requests = cleaned.requests → result.granted = cleaned.granted →
      (result.world.cloud = cleaned.cloud ∨ result.world.cloud = (TargetWork.sync
        controller.settings.clusterId controller.settings.dryRun { cloud := cleaned.cloud }
          listed).cloud) →
      result.world.orchestrator = statuses.orchestrator →
        Acts controller circumstances world listed placement result

theorem act_acts (world : World) : Acts controller circumstances world listed placement
    (controller.act circumstances world report listed placement) := by
  rw [act]
  split
  · rename_i ended
    exact .broken ended rfl rfl rfl rfl
  · rename_i work done
    split
    · rename_i ended
      exact .faltered done ended rfl rfl rfl rfl
    · rename_i statuses told
      split
      · rename_i ended
        exact .reported done told (by rw [ended]; rfl) rfl rfl (.inl rfl) rfl
      · rename_i cleaned
        exact .reported done told (by rw [cleaned]; rfl) rfl rfl (.inr rfl) rfl

/-- What the second half does to stacks: it is broken off before it cleans up, or it cleans up. -/
theorem stacks_of_acts {result : PassResult}
    (acts : Acts controller circumstances world listed placement result) :
    (∃ work, reached (StackWork.reconcileAll (controller.stackPolicy circumstances.createdAt)
          circumstances.now { cloud := world.cloud, created := world.created } placement.desired)
        = work ∧
      result.requests = work.requests ∧ result.granted = work.granted ∧
      result.world.cloud = work.cloud) ∨
    ∃ work cleaned,
      StackWork.reconcileAll (controller.stackPolicy circumstances.createdAt) circumstances.now
        { cloud := world.cloud, created := world.created } placement.desired = .ok work ∧
      reached (StackWork.cleanUpAll (controller.stackPolicy circumstances.createdAt)
        circumstances.now { work with problems := [] } placement.orphaned) = cleaned ∧
      result.requests = cleaned.requests ∧ result.granted = cleaned.granted ∧
      (result.world.cloud = cleaned.cloud ∨ result.world.cloud = (TargetWork.sync
        controller.settings.clusterId controller.settings.dryRun { cloud := cleaned.cloud }
          listed).cloud) := by
  cases acts with
  | broken ended requests granted cloud _ =>
      exact .inl ⟨_, by rw [ended]; rfl, requests, granted, cloud⟩
  | faltered done _ requests granted cloud _ =>
      exact .inl ⟨_, by rw [done]; rfl, requests, granted, cloud⟩
  | reported done _ swept requests granted cloud _ =>
      exact .inr ⟨_, _, done, swept, requests, granted, cloud⟩

/-- Addresses are written only behind the work on wanted load balancers, whose requests have been
made, and only in their stage. -/
theorem orchestrator_of_acts {result : PassResult}
    (acts : Acts controller circumstances world listed placement result) :
    result.world.orchestrator = world.orchestrator ∨
    ∃ work, StackWork.reconcileAll (controller.stackPolicy circumstances.createdAt)
        circumstances.now { cloud := world.cloud, created := world.created } placement.desired
          = .ok work ∧
      (∀ request ∈ work.requests, request ∈ result.requests) ∧
      result.world.orchestrator
        = (reached (controller.statusWork circumstances world placement)).orchestrator := by
  cases acts with
  | broken _ _ _ _ same => exact .inl same
  | faltered done told requests _ _ same =>
      exact .inr ⟨_, done, fun _ made => requests ▸ made, by rw [told]; exact same⟩
  | reported done told swept requests _ _ same =>
      refine .inr ⟨_, done, fun request made => ?_, by rw [told]; exact same⟩
      rw [requests, ← swept]
      exact StackWork.cleanUpAll_requests _ made

theorem acts_noted {result : PassResult} (noted : Placement) (misses : List (EndpointId × Miss))
    (acts : Acts controller circumstances world listed placement result) :
    Acts controller circumstances world listed placement
      { result with placement := noted, misses } := by
  cases acts with
  | broken ended requests granted cloud reported =>
      exact .broken ended requests granted cloud reported
  | faltered done told requests granted cloud reported =>
      exact .faltered done told requests granted cloud reported
  | reported done told swept requests granted cloud reported =>
      exact .reported done told swept requests granted cloud reported

/-- Whatever the work on stacks came to before the target groups is founded on the placement. Stacks
are deleted last, so that those deleted are gone. -/
theorem founded_of_acts {result : PassResult}
    (acts : Acts controller circumstances world listed placement result) :
    ∃ work, StackWork.Founded (controller.stackPolicy circumstances.createdAt)
        (placement.Asks (controller.stackPolicy circumstances.createdAt) circumstances.now)
        world.cloud work ∧ work.Cleared ∧
      result.requests = work.requests ∧ result.granted = work.granted ∧
      (result.world.cloud = work.cloud ∨ result.world.cloud = (TargetWork.sync
        controller.settings.clusterId controller.settings.dryRun { cloud := work.cloud }
          listed).cloud) := by
  let policy := controller.stackPolicy circumstances.createdAt
  have reconciled : StackWork.Founded policy (placement.Demands policy circumstances.now) world.cloud
      (reached (StackWork.reconcileAll policy circumstances.now
        { cloud := world.cloud, created := world.created } placement.desired)) :=
    StackWork.reconcileAll_founded ..
  rcases stacks_of_acts acts with
    ⟨work, ended, requests, granted, cloud⟩ | ⟨work, cleaned, done, swept, requests, granted, cloud⟩
  · rw [ended] at reconciled
    exact ⟨_, StackWork.founded_of_demands reconciled, StackWork.cleared_of_demands reconciled,
      requests, granted, .inl cloud⟩
  · rw [done] at reconciled
    have before := StackWork.founded_of_demands reconciled
    have after : StackWork.Founded policy (placement.Asks policy circumstances.now) world.cloud
        (reached (StackWork.cleanUpAll policy circumstances.now
          { work with problems := [] } placement.orphaned)) :=
      StackWork.cleanUpAll_founded ⟨before.performed, before.asked, before.requested⟩
    have undeleted : StackWork.Cleared { work with problems := [] } :=
      fun name member => StackWork.cleared_of_demands reconciled name member
    have gone : (reached (StackWork.cleanUpAll policy circumstances.now
        { work with problems := [] } placement.orphaned)).Cleared :=
      StackWork.cleanUpAll_cleared undeleted
    rw [swept] at after gone
    exact ⟨cleaned, after, gone, requests, granted, cloud⟩

theorem provisioned_of_acts {result : PassResult} {work : StackWork}
    (cloud : result.world.cloud = work.cloud ∨ result.world.cloud = (TargetWork.sync
      controller.settings.clusterId controller.settings.dryRun { cloud := work.cloud }
        listed).cloud) : result.world.cloud.provisioned = work.cloud.provisioned := by
  rcases cloud with same | synced
  · rw [same]
  · rw [synced]
    exact TargetWork.sync_provisioned ..

theorem grounded_of_acts {result : PassResult}
    (acts : Acts controller circumstances world listed placement result) :
    Grounded controller circumstances placement world.cloud result.requests result.granted
      result.world.cloud := by
  obtain ⟨work, founded, _, requests, granted, cloud⟩ := founded_of_acts acts
  rw [requests, granted]
  exact ⟨⟨work.cloud, founded.performed, provisioned_of_acts cloud⟩, founded.asked,
    founded.requested⟩

theorem demands_of_falters {result : PassResult}
    (acts : Acts controller circumstances world listed placement result)
    (falters : controller.Falters circumstances placement) : ∀ request ∈ result.requests,
      placement.Demands (controller.stackPolicy circumstances.createdAt) circumstances.now
        request := by
  let policy := controller.stackPolicy circumstances.createdAt
  have reconciled : StackWork.Founded policy (placement.Demands policy circumstances.now) world.cloud
      (reached (StackWork.reconcileAll policy circumstances.now
        { cloud := world.cloud, created := world.created } placement.desired)) :=
    StackWork.reconcileAll_founded ..
  cases acts with
  | broken ended requests _ _ _ =>
      rw [ended] at reconciled
      exact requests ▸ reconciled.requested
  | faltered done _ requests _ _ _ =>
      rw [done] at reconciled
      exact requests ▸ reconciled.requested
  | reported _ told _ _ _ _ _ =>
      obtain ⟨stop, failed⟩ := statusWork_of_falters falters world
      cases told.symm.trans failed

def targetWork (controller : Controller) (cleaned : StackWork) (listed : List Stack) : TargetWork :=
  TargetWork.sync controller.settings.clusterId controller.settings.dryRun
    { cloud := cleaned.cloud } listed

def summary (controller : Controller) (report : Report) (listed : List Stack)
    (placement : Placement) (reconciled cleaned : StackWork) (statuses : StatusWork) : Report :=
  let targets := controller.targetWork cleaned listed
  { report with
    descriptors := placement.desired.length
    stackChanges := cleaned.changes
    statusChanges := statuses.changes
    targetChanges := targets.changes
    problems := report.problems ++ placement.problems ++ reconciled.problems ++ statuses.problems
      ++ cleaned.problems ++ targets.problems }

section Stopped

variable {reconciled cleaned : StackWork} {statuses : StatusWork}

theorem act_of_broken {stop : TimeOverflow × StackWork}
    (stopped : StackWork.reconcileAll (controller.stackPolicy circumstances.createdAt)
      circumstances.now { cloud := world.cloud, created := world.created } placement.desired
        = .error stop) :
    (controller.act circumstances world report listed placement).outcome
      = .error (.overflow stop.1) := by
  simp only [act, stopped]
  rfl

theorem act_of_faltered {stop : TimeOverflow × StatusWork}
    (done : StackWork.reconcileAll (controller.stackPolicy circumstances.createdAt)
      circumstances.now { cloud := world.cloud, created := world.created } placement.desired
        = .ok reconciled)
    (stopped : controller.statusWork circumstances world placement = .error stop) :
    (controller.act circumstances world report listed placement).outcome
      = .error (.overflow stop.1) := by
  rw [statusWork] at stopped
  simp only [act, done, stopped]
  rfl

theorem act_of_swept {stop : TimeOverflow × StackWork}
    (done : StackWork.reconcileAll (controller.stackPolicy circumstances.createdAt)
      circumstances.now { cloud := world.cloud, created := world.created } placement.desired
        = .ok reconciled)
    (told : controller.statusWork circumstances world placement = .ok statuses)
    (stopped : StackWork.cleanUpAll (controller.stackPolicy circumstances.createdAt)
      circumstances.now { reconciled with problems := [] } placement.orphaned = .error stop) :
    (controller.act circumstances world report listed placement).outcome
      = .error (.overflow stop.1) := by
  rw [statusWork] at told
  simp only [act, done, told, stopped]
  rfl

theorem act_of_finished
    (done : StackWork.reconcileAll (controller.stackPolicy circumstances.createdAt)
      circumstances.now { cloud := world.cloud, created := world.created } placement.desired
        = .ok reconciled)
    (told : controller.statusWork circumstances world placement = .ok statuses)
    (swept : StackWork.cleanUpAll (controller.stackPolicy circumstances.createdAt)
      circumstances.now { reconciled with problems := [] } placement.orphaned = .ok cleaned) :
    (controller.act circumstances world report listed placement).outcome
      = .ok (controller.summary report listed placement reconciled cleaned statuses) := by
  rw [statusWork] at told
  simp only [act, done, told, swept]
  rfl

end Stopped

theorem act_finished {final : Report}
    (done : (controller.act circumstances world report listed placement).outcome = .ok final) :
    ∃ reconciled statuses cleaned,
      StackWork.reconcileAll (controller.stackPolicy circumstances.createdAt) circumstances.now
        { cloud := world.cloud, created := world.created } placement.desired = .ok reconciled ∧
      controller.statusWork circumstances world placement = .ok statuses ∧
      StackWork.cleanUpAll (controller.stackPolicy circumstances.createdAt) circumstances.now
        { reconciled with problems := [] } placement.orphaned = .ok cleaned ∧
      final = controller.summary report listed placement reconciled cleaned statuses := by
  cases first : StackWork.reconcileAll (controller.stackPolicy circumstances.createdAt)
      circumstances.now { cloud := world.cloud, created := world.created } placement.desired with
  | error stop => cases (act_of_broken first).symm.trans done
  | ok reconciled =>
      cases told : controller.statusWork circumstances world placement with
      | error stop => cases (act_of_faltered first told).symm.trans done
      | ok statuses =>
          cases second : StackWork.cleanUpAll (controller.stackPolicy circumstances.createdAt)
              circumstances.now { reconciled with problems := [] } placement.orphaned with
          | error stop => cases (act_of_swept first told second).symm.trans done
          | ok cleaned =>
              cases (act_of_finished first told second).symm.trans done
              exact ⟨reconciled, statuses, cleaned, rfl, rfl, second, rfl⟩

theorem act_problems {final : Report}
    (done : (controller.act circumstances world report listed placement).outcome = .ok final) :
    report.problems ++ placement.problems <+: final.problems := by
  obtain ⟨_, _, _, _, _, _, rfl⟩ := act_finished done
  simp only [summary, List.append_assoc]
  rw [← List.append_assoc]
  exact List.prefix_append ..

theorem act_ok {later : Instant} (ends : circumstances.now.plus? controller.grace = some later)
    (fluent : ¬ controller.Falters circumstances placement) :
    ∃ final, (controller.act circumstances world report listed placement).outcome = .ok final := by
  have ends : circumstances.now.plus? (controller.stackPolicy circumstances.createdAt).grace
      = some later := ends
  obtain ⟨work, reconciled⟩ := StackWork.reconcileAll_ok ends
    { cloud := world.cloud, created := world.created } placement.desired
  obtain ⟨statuses, told⟩ := statusWork_ok fluent world
  obtain ⟨final, cleaned⟩ := StackWork.cleanUpAll_ok ends { work with problems := [] }
    placement.orphaned
  exact ⟨_, act_of_finished reconciled told cleaned⟩

/-- Times are the only reason for the second half to end early: the end of the grace period, or a
span that a debug message is to tell. -/
theorem act_error {fault : Fault}
    (failed : (controller.act circumstances world report listed placement).outcome = .error fault) :
    ∃ overflow, fault = .overflow overflow ∧
      (circumstances.now.plus? controller.grace = none ∨
        controller.Falters circumstances placement) := by
  -- Without either cause all stages end.
  have cause : circumstances.now.plus? controller.grace = none ∨
      controller.Falters circumstances placement := by
    cases ends : circumstances.now.plus? controller.grace with
    | none => exact .inl rfl
    | some later =>
        refine .inr (Classical.byContradiction fun fluent => ?_)
        have ended : ∃ final, (controller.act circumstances world report listed placement).outcome
            = .ok final := act_ok ends fluent
        obtain ⟨final, done⟩ := ended
        rw [done] at failed
        cases failed
  rw [act] at failed
  split at failed
  · cases failed
    exact ⟨_, rfl, cause⟩
  · simp only at failed
    split at failed
    · cases failed
      exact ⟨_, rfl, cause⟩
    · split at failed
      · cases failed
        exact ⟨_, rfl, cause⟩
      · cases failed

structure Prepared (controller : Controller) (circumstances : Circumstances) (world : World)
    (endpoints : List Endpoint) (orchestrator : Orchestrator) (resolution : Resolution)
    (listed : List Stack) : Prop where
  endpoints_listed : world.orchestrator.list circumstances.files = .ok (endpoints, orchestrator)
  resolved : Resolution.ofEndpoints circumstances.snapshot controller.settings.clusterLocalDomain
    circumstances.now {} endpoints = .ok resolution
  stacks_listed : world.cloud.listStacks controller.settings.clusterId = .ok listed

theorem pass_of_prepared {endpoints : List Endpoint} {orchestrator : Orchestrator}
    {resolution : Resolution}
    (prepared : Prepared controller circumstances world endpoints orchestrator resolution listed)
    (calm : world.orchestrator.crash = none)
    (placed : Placement.ofStacks controller.placementPolicy listed resolution.resolved
      (controller.alarms orchestrator).1 circumstances.now = placement) :
    controller.pass circumstances world =
      { controller.act circumstances { world with orchestrator }
          { endpoints := endpoints.length
            problems := resolution.problems ++ (controller.alarms orchestrator).2 }
          listed placement with
        placement
        misses := resolution.misses } := by
  rw [pass, calm]
  simp only [prepared.endpoints_listed, process, prepared.resolved, prepared.stacks_listed, placed]

/-- A pass that does not come to place endpoints changes no stack and reports no address. -/
theorem pass_stages (controller : Controller) (circumstances : Circumstances) (world : World) :
    ((controller.pass circumstances world).world.cloud = world.cloud ∧
      (controller.pass circumstances world).granted = [] ∧
      (controller.pass circumstances world).requests = [] ∧
      (controller.pass circumstances world).placement = {} ∧
      (controller.pass circumstances world).world.orchestrator.statuses
        = world.orchestrator.statuses) ∨
    ∃ endpoints orchestrator resolution listed,
      Prepared controller circumstances world endpoints orchestrator resolution listed ∧
      (controller.pass circumstances world).placement = Placement.ofStacks
        controller.placementPolicy listed resolution.resolved (controller.alarms orchestrator).1
          circumstances.now ∧
      Acts controller circumstances { world with orchestrator } listed
        (controller.pass circumstances world).placement (controller.pass circumstances world) := by
  rw [pass]
  split
  · exact .inl ⟨rfl, rfl, rfl, rfl, rfl⟩
  · split
    · exact .inl ⟨rfl, rfl, rfl, rfl, rfl⟩
    · rename_i endpoints orchestrator endpoints_listed
      have statuses := Orchestrator.list_statuses endpoints_listed
      rw [process]
      split
      · exact .inl ⟨rfl, rfl, rfl, rfl, statuses⟩
      · rename_i resolution resolved
        simp only
        split
        · exact .inl ⟨rfl, rfl, rfl, rfl, statuses⟩
        · rename_i listed stacks_listed
          refine .inr ⟨endpoints, orchestrator, resolution, listed,
            ⟨endpoints_listed, resolved, stacks_listed⟩, rfl, ?_⟩
          exact acts_noted _ resolution.misses (act_acts { world with orchestrator })

/-- A pass leaves the stacks alone, or places endpoints on those that it listed and asks for
nothing but what follows from the placement. -/
theorem pass_cases (controller : Controller) (circumstances : Circumstances) (world : World) :
    ((controller.pass circumstances world).world.cloud = world.cloud ∧
      (controller.pass circumstances world).granted = [] ∧
      (controller.pass circumstances world).requests = [] ∧
      (controller.pass circumstances world).placement = {}) ∨
    ∃ listed resolved alarms,
      world.cloud.listStacks controller.settings.clusterId = .ok listed ∧
      (controller.pass circumstances world).placement = Placement.ofStacks
        controller.placementPolicy listed resolved alarms circumstances.now ∧
      Grounded controller circumstances (controller.pass circumstances world).placement world.cloud
        (controller.pass circumstances world).requests
        (controller.pass circumstances world).granted
        (controller.pass circumstances world).world.cloud := by
  rcases controller.pass_stages circumstances world with
    ⟨same, granted, requests, blank, _⟩ | ⟨_, _, resolution, listed, prepared, placing, acts⟩
  · exact .inl ⟨same, granted, requests, blank⟩
  · have grounded := grounded_of_acts acts
    exact .inr ⟨listed, resolution.resolved, _, prepared.stacks_listed, placing, grounded⟩

end Controller

end IngressControl
