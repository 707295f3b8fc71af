import IngressControl.Proofs.Pass.Comparison
import IngressControl.Proofs.Pass.Legibility
import IngressControl.Proofs.Pass.Territory
/-!
Passes of clusters that share a cloud.

Whatever a pass requests belongs to its own cluster, so it leaves alone what belongs to any other.
And two passes of one cluster, in clouds that agree for it, list the same stacks, request the same
and are answered alike; they end with the same report, in clouds that agree again.
-/

namespace IngressControl

open Attempt

def StackPolicy.Supplies (policy : StackPolicy) : Prop :=
  ∀ number, Supplied policy.cluster (policy.freshName number)

def Descriptor.Domestic (cluster : String) (descriptor : Descriptor) : Prop :=
  ∀ existing, descriptor.existing = some existing → Supplied cluster existing.name

namespace Descriptor

variable {descriptor : Descriptor} {policy : StackPolicy} {now : Instant}

theorem belongs_of_spec {name : StackName} {cluster : String} {grace : Span} {spec : StackSpec}
    (requested : descriptor.spec name cluster now grace = .ok spec)
    (supplied : Supplied cluster name) {request : StackRequest}
    (writes : request = .create spec ∨ request = .update spec) : request.BelongsTo cluster := by
  obtain ⟨schedule, _, tagged⟩ := tags_of_spec requested
  have named : request.name = name := by
    rcases writes with rfl | rfl <;> exact spec_name requested
  refine ⟨named ▸ supplied, fun other writes' stack same => ?_⟩
  have equal : other = spec := by
    rcases writes with rfl | rfl <;> rcases writes' with same | same <;> cases same <;> rfl
  subst equal
  exact Stack.isOf_of_tagsFor (same.trans tagged)

theorem belongs_of_move {fresh : StackName} {action : DesiredAction} {request : StackRequest}
    (supplied : Supplied policy.cluster fresh) (domestic : descriptor.Domestic policy.cluster)
    (moved : descriptor.move policy fresh now action = .ok (.request request)) :
    request.BelongsTo policy.cluster := by
  rcases move_eq_request moved with
    ⟨_, spec, requested, same⟩ | ⟨_, existing, spec, _, found, requested, same⟩
  · exact belongs_of_spec requested supplied (.inl same)
  · exact belongs_of_spec requested (domestic existing found) (.inr same)

end Descriptor

theorem ObservedStack.belongs_of_move {cluster : String} {orphan : ObservedStack}
    {action : OrphanAction} {request : StackRequest} (supplied : Supplied cluster orphan.name)
    (moved : orphan.move action = .request request) : request.BelongsTo cluster := by
  cases action with
  | schedule moment =>
      cases moved
      exact ⟨supplied, by rintro _ (⟨⟨⟩⟩ | ⟨⟨⟩⟩)⟩
  | delete =>
      cases moved
      exact ⟨supplied, by rintro _ (⟨⟨⟩⟩ | ⟨⟨⟩⟩)⟩
  | keep => cases moved

namespace StackWork

variable {policy : StackPolicy} {now : Instant} {start : Cloud} {work work' : StackWork}

def Belongs (policy : StackPolicy) : Cloud → StackWork → Prop :=
  Founded policy (StackRequest.BelongsTo policy.cluster)

theorem reconcileAll_belongs (supplies : policy.Supplies) {descriptors : List Descriptor}
    (domestic : ∀ descriptor ∈ descriptors, descriptor.Domestic policy.cluster)
    (belongs : Belongs policy start work) :
    Belongs policy start (reached (reconcileAll policy now work descriptors)) := by
  apply each_induction _ work belongs
  intro work after descriptor member belongs done
  obtain ⟨action, _, done⟩ := bind_eq_ok_iff.mp done
  obtain ⟨move, moved, same⟩ := bind_eq_ok_iff.mp done
  cases same
  apply apply_founded _ _ _ belongs
  rintro request rfl
  exact Descriptor.belongs_of_move (supplies _) (domestic descriptor member) moved

theorem cleanUpAll_belongs {orphans : List ObservedStack}
    (domestic : ∀ orphan ∈ orphans, Supplied policy.cluster orphan.name)
    (belongs : Belongs policy start work) :
    Belongs policy start (reached (cleanUpAll policy now work orphans)) := by
  apply each_induction _ work belongs
  intro work after orphan member belongs done
  obtain ⟨action, _, same⟩ := bind_eq_ok_iff.mp done
  cases same
  apply apply_founded _ _ _ belongs
  intro request moved
  exact ObservedStack.belongs_of_move (domestic orphan member) moved

/-- The works differ only in their clouds, which agree for the cluster. -/
def Alike (cluster : String) (work work' : StackWork) : Prop :=
  ∃ cloud, work' = { work with cloud } ∧ Cloud.AgreeFor cluster work.cloud cloud

theorem issue_alike {cluster : String} (alike : Alike cluster work work') (scope : String)
    (count : StackChanges → StackChanges) {request : StackRequest}
    (supplied : Supplied cluster request.name) :
    Alike cluster (work.issue policy scope count request)
      (work'.issue policy scope count request) := by
  obtain ⟨cloud, rfl, agree⟩ := alike
  have noted : ({ work with cloud } : StackWork).note request
      = { work.note request with cloud } := rfl
  have answers : Alongside Eq (Cloud.AgreeFor cluster)
      ((work.note request).cloud.perform policy.createdAt request)
      (cloud.perform policy.createdAt request) :=
    Cloud.perform_agreeFor agree policy.createdAt supplied
  rw [issue, issue, noted]
  simp only
  rcases alongside_cases answers with
    ⟨failure, _, denied, denied', rfl⟩ | ⟨after, after', granted, granted', agree'⟩
  · rw [denied, denied']
    exact ⟨cloud, rfl, agree⟩
  · rw [granted, granted']
    exact ⟨after', rfl, agree'⟩

theorem apply_alike {cluster : String} (alike : Alike cluster work work') (scope : String)
    (count : StackChanges → StackChanges) {move : Move}
    (supplied : ∀ request, move = .request request → Supplied cluster request.name) :
    Alike cluster (work.apply policy scope count move) (work'.apply policy scope count move) := by
  cases move with
  | nothing =>
      obtain ⟨cloud, rfl, agree⟩ := alike
      exact ⟨cloud, rfl, agree⟩
  | refuse failure =>
      obtain ⟨cloud, rfl, agree⟩ := alike
      exact ⟨cloud, rfl, agree⟩
  | request request =>
      rw [apply, apply]
      split
      · obtain ⟨cloud, rfl, agree⟩ := alike
        exact ⟨cloud, rfl, agree⟩
      · exact issue_alike alike scope count (supplied request rfl)

theorem reconcile_alike (supplies : policy.Supplies) {descriptor : Descriptor}
    (domestic : descriptor.Domestic policy.cluster) (alike : Alike policy.cluster work work') :
    Alongside Eq (Alike policy.cluster) (reconcile policy now work descriptor)
      (reconcile policy now work' descriptor) := by
  have created : work'.created = work.created := by
    obtain ⟨_, rfl, _⟩ := alike
    rfl
  refine alongside_bind (alongside_refl (descriptor.plan now policy.grace)) ?_
  rintro action _ rfl
  rw [created]
  cases moved : descriptor.move policy (policy.freshName work.created) now action with
  | error overflow => exact .error rfl
  | ok move =>
      refine .ok (apply_alike alike _ _ ?_)
      rintro request rfl
      exact (Descriptor.belongs_of_move (supplies _) domestic moved).supplied

theorem cleanUp_alike {orphan : ObservedStack} (domestic : Supplied policy.cluster orphan.name)
    (alike : Alike policy.cluster work work') :
    Alongside Eq (Alike policy.cluster) (cleanUp policy now work orphan)
      (cleanUp policy now work' orphan) := by
  refine alongside_bind (alongside_refl (orphan.planOrphan now policy.grace)) ?_
  rintro action _ rfl
  refine .ok (apply_alike alike _ _ fun request moved => ?_)
  exact (ObservedStack.belongs_of_move domestic moved).supplied

def AlikeStop (cluster : String) (stop stop' : TimeOverflow × StackWork) : Prop :=
  stop.1 = stop'.1 ∧ Alike cluster stop.2 stop'.2

theorem each_alike {α : Type} {cluster : String} {Domestic : α → Prop}
    {step : StackWork → α → Except TimeOverflow StackWork}
    (kept : ∀ item work work', Domestic item → Alike cluster work work' →
      Alongside Eq (Alike cluster) (step work item) (step work' item))
    {items : List α} (domestic : ∀ item ∈ items, Domestic item)
    (alike : Alike cluster work work') :
    Alongside (AlikeStop cluster) (Alike cluster) (each step work items) (each step work' items) := by
  let Related (rest : List α) (first second : StackWork) : Prop :=
    (∀ item ∈ rest, Domestic item) ∧ Alike cluster first second
  have stepwise (item : α) (rest : List α) (first second : StackWork)
      (related : Related (item :: rest) first second) :
      Alongside Eq (Related rest) (step first item) (step second item) := by
    obtain ⟨here, behind⟩ := List.forall_mem_cons.mp related.1
    exact alongside_imp (fun _ _ same => same) (fun _ _ alike => ⟨behind, alike⟩)
      (kept item first second here related.2)
  refine alongside_imp ?_ (fun _ _ related => related.2)
    (each_alongside Related stepwise items ⟨domestic, alike⟩)
  rintro stop stop' ⟨reason, _, _, alike⟩
  exact ⟨reason, alike⟩

theorem reconcileAll_alike (supplies : policy.Supplies) (now : Instant)
    {descriptors : List Descriptor}
    (domestic : ∀ descriptor ∈ descriptors, descriptor.Domestic policy.cluster)
    (alike : Alike policy.cluster work work') :
    Alongside (AlikeStop policy.cluster) (Alike policy.cluster)
      (reconcileAll policy now work descriptors) (reconcileAll policy now work' descriptors) :=
  each_alike (fun _ _ _ => reconcile_alike supplies) domestic alike

theorem cleanUpAll_alike (policy : StackPolicy) (now : Instant) {orphans : List ObservedStack}
    (domestic : ∀ orphan ∈ orphans, Supplied policy.cluster orphan.name)
    (alike : Alike policy.cluster work work') :
    Alongside (AlikeStop policy.cluster) (Alike policy.cluster)
      (cleanUpAll policy now work orphans) (cleanUpAll policy now work' orphans) :=
  each_alike (fun _ _ _ => cleanUp_alike) domestic alike

end StackWork

namespace TargetWork

variable {dryRun : Bool} {own : String} {group : String} {work work' after : TargetWork}

theorem register_foreign (foreign : ¬ Routed own group) {missing : List InstanceId}
    (done : work.register dryRun group missing = .ok after) :
    Cloud.AgreeFor own work.cloud after.cloud := by
  obtain ⟨_, same | changed⟩ := register_cases done
  · rw [same]
    exact Cloud.agreeFor_refl own work.cloud
  · rw [changed]
    exact { Cloud.agreeFor_refl own work.cloud with
      targets := Table.agreeOn_insert_of_not foreign _ }

theorem deregister_foreign (foreign : ¬ Routed own group) {stale : List InstanceId}
    (done : work.deregister dryRun group stale = .ok after) :
    Cloud.AgreeFor own work.cloud after.cloud := by
  obtain ⟨_, same | changed⟩ := deregister_cases done
  · rw [same]
    exact Cloud.agreeFor_refl own work.cloud
  · rw [changed]
    exact { Cloud.agreeFor_refl own work.cloud with
      targets := Table.agreeOn_modify_of_not foreign _ }

theorem sync_foreign {listed : List Stack}
    (foreign : ∀ group ∈ routableGroups listed, ¬ Routed own group) (cluster : String)
    (work : TargetWork) : Cloud.AgreeFor own work.cloud (sync cluster dryRun work listed).cloud := by
  have same := Cloud.agreeFor_refl own work.cloud
  refine sync_induction (motive := fun current => Cloud.AgreeFor own work.cloud current.cloud)
    (fun _ _ => same) ?_ same
  intro instances _ current group routable agree
  have foreign := foreign group routable
  refine syncGroup_induction (motive := fun current => Cloud.AgreeFor own work.cloud current.cloud)
    (fun _ _ _ kept => kept) ?_ ?_ agree
  · exact fun _ _ _ _ done kept => Cloud.agreeFor_trans kept (register_foreign foreign done)
  · exact fun _ _ _ _ done kept => Cloud.agreeFor_trans kept (deregister_foreign foreign done)

def Alike (cluster : String) (work work' : TargetWork) : Prop :=
  ∃ cloud, work' = { work with cloud } ∧ Cloud.AgreeFor cluster work.cloud cloud

theorem register_alike (alike : Alike own work work') (routed : Routed own group)
    (missing : List InstanceId) :
    Alongside Eq (Alike own) (work.register dryRun group missing)
      (work'.register dryRun group missing) := by
  obtain ⟨cloud, rfl, agree⟩ := alike
  rw [register, register]
  split
  · exact .ok ⟨cloud, rfl, agree⟩
  · cases dryRun with
    | true => exact .ok ⟨cloud, rfl, agree⟩
    | false =>
        exact alongside_bind (Cloud.registerTargets_agreeFor agree routed missing)
          fun _ after agree => .ok ⟨after, rfl, agree⟩

theorem deregister_alike (alike : Alike own work work') (group : String)
    (stale : List InstanceId) :
    Alongside Eq (Alike own) (work.deregister dryRun group stale)
      (work'.deregister dryRun group stale) := by
  obtain ⟨cloud, rfl, agree⟩ := alike
  rw [deregister, deregister]
  split
  · exact .ok ⟨cloud, rfl, agree⟩
  · cases dryRun with
    | true => exact .ok ⟨cloud, rfl, agree⟩
    | false =>
        exact alongside_bind (Cloud.deregisterTargets_agreeFor agree group stale)
          fun _ after agree => .ok ⟨after, rfl, agree⟩

theorem addProblem_alike (alike : Alike own work work') (scope : String) (failure : Failure) :
    Alike own (work.addProblem scope failure) (work'.addProblem scope failure) := by
  obtain ⟨cloud, rfl, agree⟩ := alike
  exact ⟨cloud, rfl, agree⟩

theorem syncGroup_alike (alike : Alike own work work') (routed : Routed own group)
    (instances : KeySet InstanceId) :
    Alike own (syncGroup dryRun instances work group) (syncGroup dryRun instances work' group) := by
  have listing : work'.cloud.listTargets group = work.cloud.listTargets group := by
    obtain ⟨cloud, rfl, agree⟩ := alike
    rw [Cloud.listTargets, Cloud.listTargets, Cloud.permit_of_agreeFor agree,
      Cloud.registered_congr agree routed]
  rw [syncGroup, syncGroup, listing]
  split
  · exact addProblem_alike alike _ _
  · rename_i registered _
    simp only
    rcases alongside_cases (register_alike alike routed (KeySet.without instances
        (KeySet.ofList registered))) with
      ⟨failure, _, failed, failed', rfl⟩ | ⟨middle, middle', done, done', alike'⟩
    · rw [failed, failed']
      exact addProblem_alike alike _ failure
    · rw [done, done']
      simp only
      rcases alongside_cases (deregister_alike alike' group (KeySet.without
          (KeySet.ofList registered) instances)) with
        ⟨failure, _, failed, failed', rfl⟩ | ⟨last, last', done, done', alike''⟩
      · rw [failed, failed']
        exact addProblem_alike alike' _ failure
      · rw [done, done']
        exact alike''

theorem sync_alike {listed : List Stack} (routed : ∀ group ∈ routableGroups listed, Routed own group)
    (cluster : String) (alike : Alike own work work') :
    Alike own (sync cluster dryRun work listed) (sync cluster dryRun work' listed) := by
  have listing : work'.cloud.listInstances cluster = work.cloud.listInstances cluster := by
    obtain ⟨cloud, rfl, agree⟩ := alike
    rw [Cloud.listInstances, Cloud.listInstances, Cloud.permit_of_agreeFor agree, agree.instances]
  rw [sync, sync, listing]
  split
  · exact alike
  · split
    · exact addProblem_alike alike _ _
    · exact List.foldl_rel alike fun group member _ _ alike =>
        syncGroup_alike alike (routed group member) _

end TargetWork

namespace Placement

variable {own : String} {placement : Placement}

def Domestic (cluster : String) (placement : Placement) : Prop :=
  ∀ descriptor ∈ placement.descriptors, descriptor.Domestic cluster

theorem domestic_of_desired (domestic : placement.Domestic own) :
    ∀ descriptor ∈ placement.desired, descriptor.Domestic own :=
  fun descriptor member => domestic descriptor (List.mem_filter.mp member).1

theorem supplied_of_orphaned (domestic : placement.Domestic own) :
    ∀ orphan ∈ placement.orphaned, Supplied own orphan.name := by
  intro orphan member
  obtain ⟨descriptor, placed, _, old⟩ := mem_orphaned member
  exact domestic descriptor placed orphan old

theorem domestic_of_listed {listed : List Stack} (belongs : ∀ stack ∈ listed, stack.BelongsTo own)
    (policy : PlacementPolicy) (alarms : Option AlarmSet) (now : Instant)
    (endpoints : List ResolvedEndpoint) :
    (ofStacks policy listed endpoints alarms now).Domestic own := by
  intro descriptor placed existing old
  obtain ⟨stack, member, read⟩ := existing_readable placed old
  rw [ObservedStack.name, (ObservedStack.ofStack_eq_ok read).1]
  exact (belongs stack member).supplied

end Placement

theorem TargetWork.routed_of_listed {own : String} {listed : List Stack}
    (belongs : ∀ stack ∈ listed, stack.BelongsTo own) :
    ∀ group ∈ routableGroups listed, Routed own group := by
  intro group member
  obtain ⟨stack, here, _, holds⟩ := mem_routableGroups member
  obtain rfl := Option.some.inj (holds.symm.trans (belongs stack here).routed)
  exact ⟨stack.name, (belongs stack here).supplied, rfl⟩

def World.Alike (cluster : String) (world world' : World) : Prop :=
  ∃ cloud, world' = { world with cloud } ∧ Cloud.AgreeFor cluster world.cloud cloud

structure PassResult.Alike (cluster : String) (result result' : PassResult) : Prop where
  outcome : result.outcome = result'.outcome
  world : World.Alike cluster result.world result'.world

namespace Controller

variable {controller : Controller} {circumstances : Circumstances} {world world' : World}
  {report : Report} {listed : List Stack} {placement : Placement} {own : String}

def Supplies (controller : Controller) : Prop :=
  ∀ number, Supplied controller.settings.clusterId (controller.freshName number)

section Own

theorem act_alike (supplies : controller.Supplies)
    (domestic : placement.Domestic controller.settings.clusterId)
    (routed : ∀ group ∈ TargetWork.routableGroups listed,
      Routed controller.settings.clusterId group)
    (alike : World.Alike controller.settings.clusterId world world') :
    PassResult.Alike controller.settings.clusterId
      (controller.act circumstances world report listed placement)
      (controller.act circumstances world' report listed placement) := by
  obtain ⟨cloud, rfl, agree⟩ := alike
  have supplies : (controller.stackPolicy circumstances.createdAt).Supplies := supplies
  have started : StackWork.Alike controller.settings.clusterId
      { cloud := world.cloud, created := world.created } { cloud, created := world.created } :=
    ⟨cloud, rfl, agree⟩
  have reconciled := StackWork.reconcileAll_alike supplies circumstances.now
    (Placement.domestic_of_desired domestic) started
  rw [act, act]
  rcases alongside_cases reconciled with
    ⟨⟨overflow, work⟩, ⟨_, _⟩, stopped, stopped', rfl, after, rfl, agree⟩ |
      ⟨work, _, done, done', after, rfl, agree⟩
  · simp only [stopped, stopped']
    exact ⟨rfl, after, rfl, agree⟩
  · simp only [done, done']
    -- Addresses are reported without a look at the cloud.
    cases StatusWork.reportAll circumstances.debugs controller.settings.dryRun controller.minAge
        circumstances.now { orchestrator := world.orchestrator } placement.desired with
    | error stop => exact ⟨rfl, after, rfl, agree⟩
    | ok statuses =>
        have resumed : StackWork.Alike controller.settings.clusterId { work with problems := [] }
            { work with problems := [], cloud := after } := ⟨after, rfl, agree⟩
        have swept := StackWork.cleanUpAll_alike (controller.stackPolicy circumstances.createdAt)
          circumstances.now (Placement.supplied_of_orphaned domestic) resumed
        rcases alongside_cases swept with
          ⟨⟨overflow, work⟩, ⟨_, _⟩, stopped, stopped', rfl, last, rfl, agree⟩ |
            ⟨cleaned, _, done, done', last, rfl, agree⟩
        · simp only [stopped, stopped']
          exact ⟨rfl, last, rfl, agree⟩
        · simp only [done, done']
          have begun : TargetWork.Alike controller.settings.clusterId { cloud := cleaned.cloud }
              { cloud := last } := ⟨last, rfl, agree⟩
          have synced : TargetWork.Alike _ (TargetWork.sync controller.settings.clusterId
              controller.settings.dryRun _ listed) _ := TargetWork.sync_alike routed _ begun
          obtain ⟨final, same, agree⟩ := synced
          rw [same]
          exact ⟨rfl, final, rfl, agree⟩

/-- Passes of a cluster in clouds that agree for it end alike. -/
theorem pass_alike (supplies : controller.Supplies) (housed : world.cloud.Housed)
    (housed' : world'.cloud.Housed) (circumstances : Circumstances)
    (alike : World.Alike controller.settings.clusterId world world') :
    PassResult.Alike controller.settings.clusterId (controller.pass circumstances world)
      (controller.pass circumstances world') := by
  obtain ⟨cloud, rfl, agree⟩ := alike
  have view : SameView controller controller world { world with cloud } :=
    ⟨rfl, rfl, rfl, rfl, Cloud.listStacks_congr agree housed housed'⟩
  have abreast := pass_abreast view circumstances
  generalize controller.pass circumstances world = result at abreast ⊢
  generalize controller.pass circumstances { world with cloud } = result' at abreast ⊢
  cases abreast with
  | ended orchestrator _ left left' outcome _ =>
      exact ⟨outcome, cloud, by rw [left, left'], by rw [left]; exact agree⟩
  | @acted _ orchestrator _ listed report placement misses prepared placing =>
      have belongs := Cloud.listed_belongs housed prepared.stacks_listed
      have domestic : placement.Domestic controller.settings.clusterId :=
        placing ▸ Placement.domestic_of_listed belongs _ _ _ _
      have acts : PassResult.Alike controller.settings.clusterId
          (controller.act circumstances { world with orchestrator } report listed placement)
          (controller.act circumstances { world with orchestrator, cloud } report listed placement) :=
        act_alike supplies domestic (TargetWork.routed_of_listed belongs) ⟨cloud, rfl, agree⟩
      exact ⟨acts.outcome, acts.world⟩

end Own

section Foreign

/-- What holds of the work on the wanted load balancers and is kept by that on the orphans, holds of
the work that target groups start from. -/
theorem work_of_acts {result : PassResult} {Holds : StackWork → Prop}
    (acts : Acts controller circumstances world listed placement result)
    (reconciled : Holds (reached (StackWork.reconcileAll
      (controller.stackPolicy circumstances.createdAt) circumstances.now
        { cloud := world.cloud, created := world.created } placement.desired)))
    (swept : ∀ work, Holds work → Holds (reached (StackWork.cleanUpAll
      (controller.stackPolicy circumstances.createdAt) circumstances.now
        { work with problems := [] } placement.orphaned))) :
    ∃ work, Holds work ∧
      (result.world.cloud = work.cloud ∨ result.world.cloud = (TargetWork.sync
        controller.settings.clusterId controller.settings.dryRun { cloud := work.cloud }
          listed).cloud) := by
  rcases stacks_of_acts acts with
    ⟨work, ended, _, _, cloud⟩ | ⟨work, cleaned, done, ended, _, _, cloud⟩
  · rw [ended] at reconciled
    exact ⟨work, reconciled, .inl cloud⟩
  · rw [done] at reconciled
    exact ⟨cleaned, ended ▸ swept _ reconciled, cloud⟩

theorem pass_belongs (supplies : controller.Supplies) (housed : world.cloud.Housed)
    (circumstances : Circumstances) :
    (controller.pass circumstances world).world.cloud = world.cloud ∨
      ∃ listed work, (∀ stack ∈ listed, stack.BelongsTo controller.settings.clusterId) ∧
        StackWork.Belongs (controller.stackPolicy circumstances.createdAt) world.cloud work ∧
        ((controller.pass circumstances world).world.cloud = work.cloud ∨
          (controller.pass circumstances world).world.cloud = (TargetWork.sync
            controller.settings.clusterId controller.settings.dryRun { cloud := work.cloud }
              listed).cloud) := by
  rcases controller.pass_stages circumstances world with
    ⟨same, _⟩ | ⟨_, orchestrator, _, listed, prepared, placing, acts⟩
  · exact .inl same
  · have supplies : (controller.stackPolicy circumstances.createdAt).Supplies := supplies
    have belongs := Cloud.listed_belongs housed prepared.stacks_listed
    have domestic : (controller.pass circumstances world).placement.Domestic
        controller.settings.clusterId := placing ▸ Placement.domestic_of_listed belongs _ _ _ _
    obtain ⟨work, founded, cloud⟩ := work_of_acts acts
      (StackWork.reconcileAll_belongs supplies (Placement.domestic_of_desired domestic)
        ⟨.none, nofun, nofun⟩)
      (fun work founded => StackWork.cleanUpAll_belongs (Placement.supplied_of_orphaned domestic)
        ⟨founded.performed, founded.asked, founded.requested⟩)
    exact .inr ⟨listed, work, belongs, founded, cloud⟩

theorem pass_housed (supplies : controller.Supplies) (housed : world.cloud.Housed)
    (circumstances : Circumstances) :
    (controller.pass circumstances world).world.cloud.Housed := by
  rcases pass_belongs supplies housed circumstances with
    same | ⟨listed, work, _, founded, cloud⟩
  · rwa [same]
  · have kept := Cloud.performs_housed housed founded.asked founded.performed
    rw [Cloud.Housed, provisioned_of_acts cloud]
    exact kept

theorem pass_foreign (distinct : own ≠ controller.settings.clusterId)
    (supplies : controller.Supplies) (housed : world.cloud.Housed)
    (circumstances : Circumstances) :
    Cloud.AgreeFor own world.cloud (controller.pass circumstances world).world.cloud := by
  rcases pass_belongs supplies housed circumstances with
    same | ⟨listed, work, belongs, founded, cloud⟩
  · rw [same]
    exact Cloud.agreeFor_refl own world.cloud
  · have agree := Cloud.performs_foreign distinct housed founded.asked founded.performed
    rcases cloud with same | synced
    · rwa [same]
    · have foreign : ∀ group ∈ TargetWork.routableGroups listed, ¬ Routed own group :=
        fun group member => not_routed distinct (TargetWork.routed_of_listed belongs group member)
      have untouched : Cloud.AgreeFor own work.cloud (TargetWork.sync controller.settings.clusterId
          controller.settings.dryRun { cloud := work.cloud } listed).cloud :=
        TargetWork.sync_foreign foreign _ { cloud := work.cloud }
      rw [synced]
      exact Cloud.agreeFor_trans agree untouched

end Foreign

end Controller

end IngressControl
