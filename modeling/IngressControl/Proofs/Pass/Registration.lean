import IngressControl.Proofs.Pass.Delivery
/-!
In which target groups instances are registered after a pass.

A stack that is deleted takes its target group with it. Target groups are brought in line last,
though, and by the listing from the start of the pass: so the group of a complete stack comes back
when the same pass has deleted the stack.
-/

namespace IngressControl

namespace Cloud

def Attached (cloud : Cloud) (group : String) : Prop :=
  ∃ name stack, cloud.provisioned.get? name = some stack ∧ stack.targetGroup = some group

def Tidy (cloud : Cloud) : Prop :=
  ∀ group machine, (cloud.registered group).contains machine = true → cloud.Attached group

variable {cloud after start : Cloud} {createdAt : Instant} {request : StackRequest}
  {requests : List StackRequest} {group : String} {machine : InstanceId}

/-- Beside stacks, a request is about their target groups only: a new one is empty, and a stack that
is deleted takes its own away. -/
theorem perform_beside (granted : cloud.perform createdAt request = .ok after) :
    after.instances = cloud.instances ∧
      (((∀ name, request ≠ .delete name) ∧
          ∀ group, after.registered group = cloud.registered group) ∨
        ∃ name stack, request = .delete name ∧ cloud.provisioned.get? name = some stack ∧
          after.targets = stack.targetGroup.elim cloud.targets cloud.targets.erase) := by
  cases request with
  | create spec =>
      obtain ⟨_, rfl⟩ := perform_create granted
      refine ⟨rfl, .inl ⟨by simp, fun group => ?_⟩⟩
      simp only [registered]
      by_cases known : cloud.targets.contains (targetGroup spec.name) = true
      · rw [if_pos known]
      · rw [if_neg known]
        by_cases same : group = targetGroup spec.name
        · have absent : cloud.targets.get? group = none := by
            rw [same]
            simpa [Table.contains] using known
          rw [absent, same, Table.get?_insert_self]
          rfl
        · rw [Table.get?_insert_of_ne _ same]
  | update spec =>
      obtain ⟨_, _, rfl⟩ := perform_update granted
      exact ⟨rfl, .inl ⟨by simp, fun _ => rfl⟩⟩
  | scheduleDeletion name moment =>
      obtain ⟨_, _, rfl⟩ := perform_scheduleDeletion granted
      exact ⟨rfl, .inl ⟨by simp, fun _ => rfl⟩⟩
  | delete name =>
      obtain ⟨stack, found, rfl⟩ := perform_delete granted
      exact ⟨rfl, .inr ⟨name, stack, rfl, found, rfl⟩⟩

theorem perform_tidy (tidy : cloud.Tidy) (granted : cloud.perform createdAt request = .ok after) :
    after.Tidy := by
  intro group machine registered
  have attached (held : (cloud.registered group).contains machine = true)
      (kept : ∀ name stack, cloud.provisioned.get? name = some stack →
        stack.targetGroup = some group → request ≠ .delete name) : after.Attached group := by
    obtain ⟨name, stack, present, holds⟩ := tidy group machine held
    obtain ⟨later, found, continues, _⟩ :=
      perform_kept granted present (kept name stack present holds)
    exact ⟨name, later, found, continues.targetGroup.trans holds⟩
  rcases (perform_beside granted).2 with ⟨kept, same⟩ | ⟨name, stack, rfl, found, targets⟩
  · rw [same] at registered
    exact attached registered fun name _ _ _ => kept name
  · rw [Cloud.registered, targets] at registered
    -- Of the stack that goes nothing is registered any more, so the group is that of another.
    have held : (cloud.registered group).contains machine = true ∧
        stack.targetGroup ≠ some group := by
      cases own : stack.targetGroup with
      | none =>
          rw [own, Option.elim_none] at registered
          exact ⟨registered, nofun⟩
      | some cleared =>
          rw [own, Option.elim_some] at registered
          by_cases same : group = cleared
          · subst same
            rw [Table.get?_erase_self] at registered
            cases registered
          · rw [Table.get?_erase_of_ne same] at registered
            exact ⟨registered, fun equal => same (Option.some.inj equal).symm⟩
    refine attached held.1 fun other holder present holds => ?_
    rintro ⟨⟩
    obtain rfl : holder = stack := Option.some.inj (present.symm.trans found)
    exact held.2 holds

theorem performs_instances (performs : Performs createdAt start requests cloud) :
    cloud.instances = start.instances := by
  induction performs with
  | none => rfl
  | next _ granted ih => exact (perform_beside granted).1.trans ih

theorem performs_tidy (tidy : start.Tidy) (performs : Performs createdAt start requests cloud) :
    cloud.Tidy := by
  induction performs with
  | none => exact tidy
  | next _ granted ih => exact perform_tidy ih granted

end Cloud

namespace Cloud

theorem registered_insert (cloud : Cloud) (group wanted : String) (members : KeySet InstanceId) :
    { cloud with targets := cloud.targets.insert group members : Cloud }.registered wanted
      = if wanted = group then members else cloud.registered wanted := by
  rw [registered]
  split
  · rename_i same
    rw [same, Table.get?_insert_self, Option.getD_some]
  · rename_i differs
    rw [Table.get?_insert_of_ne _ differs]
    rfl

theorem registered_modify (cloud : Cloud) (group wanted : String) (keep : InstanceId → Bool) :
    { cloud with targets := cloud.targets.modify group fun members =>
        members.filter fun member _ => keep member : Cloud }.registered wanted
      = if wanted = group then (cloud.registered wanted).filter fun member _ => keep member
        else cloud.registered wanted := by
  rw [registered]
  split
  · rename_i same
    rw [same, Table.get?_modify_self, registered]
    cases cloud.targets.get? group <;> rfl
  · rename_i differs
    rw [Table.get?_modify_of_ne _ differs]
    rfl

end Cloud

namespace TargetWork

variable {dryRun : Bool} {group wanted : String} {machine : InstanceId}

theorem register_registered {work after : TargetWork} {missing : List InstanceId}
    (done : work.register dryRun group missing = .ok after)
    (registered : (after.cloud.registered wanted).contains machine = true) :
    (work.cloud.registered wanted).contains machine = true ∨ wanted = group ∧ machine ∈ missing := by
  obtain ⟨_, same | changed⟩ := register_cases done
  · rw [same] at registered
    exact .inl registered
  · rw [changed, Cloud.registered_insert] at registered
    split at registered
    · rename_i same
      subst same
      rcases KeySet.contains_addAll.mp registered with new | old
      · exact .inr ⟨rfl, new⟩
      · exact .inl old
    · exact .inl registered

theorem register_keeps {work after : TargetWork} {missing : List InstanceId}
    (done : work.register dryRun group missing = .ok after)
    (present : (work.cloud.registered wanted).contains machine = true) :
    (after.cloud.registered wanted).contains machine = true := by
  obtain ⟨_, same | changed⟩ := register_cases done
  · rwa [same]
  · rw [changed, Cloud.registered_insert]
    split
    · rename_i same
      subst same
      exact KeySet.contains_addAll.mpr (.inr present)
    · exact present

theorem deregister_registered {work after : TargetWork} {stale : List InstanceId}
    (done : work.deregister dryRun group stale = .ok after)
    (registered : (after.cloud.registered wanted).contains machine = true) :
    (work.cloud.registered wanted).contains machine = true := by
  obtain ⟨_, same | changed⟩ := deregister_cases done
  · rwa [same] at registered
  · rw [changed, Cloud.registered_modify] at registered
    split at registered
    · exact (Table.contains_filter.mp registered).1
    · exact registered

theorem deregister_keeps {work after : TargetWork} {stale : List InstanceId}
    (needed : machine ∉ stale) (done : work.deregister dryRun group stale = .ok after)
    (present : (work.cloud.registered wanted).contains machine = true) :
    (after.cloud.registered wanted).contains machine = true := by
  obtain ⟨_, same | changed⟩ := deregister_cases done
  · rwa [same]
  · rw [changed, Cloud.registered_modify]
    split
    · exact Table.contains_filter.mpr ⟨present, by simpa using needed⟩
    · exact present

theorem syncGroup_registered {instances : KeySet InstanceId} {work : TargetWork}
    (registered : ((syncGroup dryRun instances work group).cloud.registered wanted).contains machine
      = true) :
    (work.cloud.registered wanted).contains machine = true ∨
      wanted = group ∧ instances.contains machine = true := by
  revert registered
  refine syncGroup_induction (motive := fun current : TargetWork =>
    (current.cloud.registered wanted).contains machine = true → _) (fun _ _ _ kept => kept) ?_ ?_ .inl
  · intro current after missing known done kept registered
    rcases register_registered done registered with before | ⟨same, lacking⟩
    · exact kept before
    · exact .inr ⟨same, known machine lacking⟩
  · exact fun current after stale _ done kept registered =>
      kept (deregister_registered done registered)

theorem sync_registered {cluster : String} {work : TargetWork} {listed : List Stack}
    (registered : ((sync cluster dryRun work listed).cloud.registered wanted).contains machine
      = true) :
    (work.cloud.registered wanted).contains machine = true ∨
      wanted ∈ routableGroups listed ∧
        machine ∈ (work.cloud.instances.get? cluster).getD [] := by
  revert registered
  refine sync_induction (motive := fun current : TargetWork =>
    (current.cloud.registered wanted).contains machine = true → _) (fun _ _ => .inl) ?_ .inl
  intro instances known current group routable earlier registered
  have known := Cloud.permit_bind_eq_ok known
  cases known
  rcases syncGroup_registered registered with before | ⟨rfl, present⟩
  · exact earlier before
  · exact .inr ⟨routable, KeySet.contains_ofList.mp present⟩

theorem mem_routableGroups {listed : List Stack} (member : group ∈ routableGroups listed) :
    ∃ stack ∈ listed, stack.status.isComplete = true ∧ stack.targetGroup = some group := by
  obtain ⟨stack, here, holds⟩ := List.mem_filterMap.mp member
  obtain ⟨present, complete⟩ := List.mem_filter.mp here
  exact ⟨stack, present, complete, holds⟩

end TargetWork

namespace Controller

variable {controller : Controller} {circumstances : Circumstances} {world : World}

/-- Where instances are registered only for stacks, a pass leaves it so, but for the target group of
a stack that it found complete and has deleted: there the instances of the cluster come back. -/
theorem pass_registrations (tidy : world.cloud.Tidy) {group : String} {machine : InstanceId}
    (registered : ((controller.pass circumstances world).world.cloud.registered group).contains
      machine = true) :
    (controller.pass circumstances world).world.cloud.Attached group ∨
      machine ∈ (world.cloud.instances.get? controller.settings.clusterId).getD [] ∧
      ∃ name stack, world.cloud.provisioned.get? name = some stack ∧
        stack.status.isComplete = true ∧ stack.targetGroup = some group ∧
        .delete name ∈ (controller.pass circumstances world).granted := by
  rcases controller.pass_stages circumstances world with
    ⟨same, _⟩ | ⟨_, orchestrator, _, listed, prepared, _, acts⟩
  · rw [same] at registered ⊢
    exact .inl (tidy group machine registered)
  · obtain ⟨work, founded, _, _, granted, cloud⟩ := founded_of_acts acts
    have tidied := Cloud.performs_tidy tidy founded.performed
    have provisioned := provisioned_of_acts cloud
    have settled (held : (work.cloud.registered group).contains machine = true) :
        (controller.pass circumstances world).world.cloud.Attached group := by
      obtain ⟨name, stack, present, holds⟩ := tidied group machine held
      exact ⟨name, stack, by rw [provisioned, present], holds⟩
    rcases cloud with same | synced
    · rw [same] at registered
      exact .inl (settled registered)
    · rw [synced] at registered
      rcases TargetWork.sync_registered registered with held | ⟨routable, present⟩
      · exact .inl (settled held)
      · rw [Cloud.performs_instances founded.performed] at present
        obtain ⟨stack, member, complete, holds⟩ := TargetWork.mem_routableGroups routable
        obtain ⟨name, found⟩ := Cloud.mem_listStacks prepared.stacks_listed member
        by_cases deleted : .delete name ∈ work.granted
        · exact .inr ⟨present, name, stack, found, complete, holds, granted ▸ deleted⟩
        · obtain ⟨later, kept, continues, _⟩ :=
            Cloud.performs_kept founded.performed found deleted
          exact .inl ⟨name, later, by rw [provisioned, kept], continues.targetGroup.trans holds⟩

def retired : Stack where
  name := "old"
  status := .createComplete
  dnsName := none
  targetGroup := some "old-tg"
  createdAt := ⟨1767225600, 0⟩
  tags := ((Tags.ownedBy "shop").insert Tag.scheme "internal").insert Tag.deletionScheduled
    "2026-02-01T00:00:00Z"

def expired : World where
  cloud := (({} : Cloud).insertStack retired).setInstances "shop" ["i-1"]

theorem expired_registrations :
    expired.cloud.Tidy ∧
      ((steady.pass noon expired).world.cloud.registered "old-tg").contains "i-1" = true ∧
      ((steady.pass noon expired).world.cloud.Attached "old-tg" ∨
        "i-1" ∈ (expired.cloud.instances.get? steady.settings.clusterId).getD [] ∧
        ∃ name stack, expired.cloud.provisioned.get? name = some stack ∧
          stack.status.isComplete = true ∧ stack.targetGroup = some "old-tg" ∧
          .delete name ∈ (steady.pass noon expired).granted) := by
  have tidy : expired.cloud.Tidy := by
    intro group machine registered
    cases registered
  have registered : ((steady.pass noon expired).world.cloud.registered "old-tg").contains "i-1"
      = true := by decide +kernel
  exact ⟨tidy, registered, pass_registrations tidy registered⟩

/-- The pass that deletes the stack registers the instance in its target group again. -/
theorem expired_group_returns :
    Controller.ofSettings? steady.settings = some steady ∧ steady.settings.dryRun = false ∧
      expired.cloud.Named ∧ expired.cloud.Tidy ∧
      ¬ (steady.pass noon expired).world.cloud.Tidy := by
  refine ⟨rfl, rfl, ?_, ?_, fun tidy => ?_⟩
  · intro name stack found
    have member := Table.mem_entries.mpr found
    have only : expired.cloud.provisioned.entries = [("old", retired)] := by decide +kernel
    rw [only, List.mem_singleton] at member
    cases member
    rfl
  · intro group machine registered
    cases registered
  · have gone : (steady.pass noon expired).world.cloud.provisioned.values = [] := by decide +kernel
    obtain ⟨name, stack, found, _⟩ := tidy "old-tg" "i-1" (by decide +kernel)
    have member := Table.mem_values_iff.mpr ⟨name, found⟩
    rw [gone] at member
    cases member

end Controller

end IngressControl
