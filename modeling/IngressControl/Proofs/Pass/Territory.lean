import IngressControl.Proofs.Pass.Registration
import IngressControl.Proofs.Pass.Upkeep
/-!
What of a shared cloud belongs to one cluster.

All clusters keep their stacks and target groups in the same tables. The names in them tell whose
they are: that of a stack is the cluster with eight characters more, and a target group is called
after its stack. So no two clusters share a name, even if the one is called like a beginning of the
other, and a request of one cluster leaves alone what belongs to another.
-/

namespace IngressControl

open Attempt

def Supplied (cluster : String) (name : StackName) : Prop :=
  ∃ suffix : String, suffix.length = 8 ∧ name = cluster ++ "-" ++ suffix

def Routed (cluster : String) (group : String) : Prop :=
  ∃ name, Supplied cluster name ∧ group = Cloud.targetGroup name

section Names

variable {own other : String} {name : StackName}

/-- As all names end in eight characters, what is left before them is the cluster. -/
theorem supplied_unique (supplied : Supplied own name) (supplied' : Supplied other name) :
    own = other := by
  obtain ⟨suffix, length, rfl⟩ := supplied
  obtain ⟨suffix', length', same⟩ := supplied'
  have chars := congrArg String.toList same
  simp only [String.toList_append, List.append_assoc] at chars
  have ends : ("-".toList ++ suffix.toList).length = ("-".toList ++ suffix'.toList).length := by
    simp only [List.length_append, String.length_toList, length, length']
  exact String.toList_inj.mp (List.append_inj' chars ends).1

theorem targetGroup_injective {first second : StackName}
    (same : Cloud.targetGroup first = Cloud.targetGroup second) : first = second := by
  have chars := congrArg String.toList same
  rw [Cloud.targetGroup, Cloud.targetGroup, String.toList_append, String.toList_append] at chars
  exact String.toList_inj.mp (List.append_cancel_right chars)

theorem not_supplied (distinct : own ≠ other) (foreign : Supplied other name) :
    ¬ Supplied own name := fun supplied => distinct (supplied_unique supplied foreign)

theorem not_routed (distinct : own ≠ other) {group : String} (foreign : Routed other group) :
    ¬ Routed own group := by
  rintro ⟨name, supplied, rfl⟩
  obtain ⟨name', supplied', same⟩ := foreign
  rw [← targetGroup_injective same] at supplied'
  exact not_supplied distinct supplied' supplied

theorem numberedName_supplied (cluster : String) (created : Nat) :
    Supplied cluster (numberedName cluster created) := by
  refine ⟨eightDigits (created + 1), ?_, rfl⟩
  rw [eightDigits, ← String.length_toList, String.toList_ofList]
  simp

end Names

structure Stack.BelongsTo (cluster : String) (stack : Stack) : Prop where
  supplied : Supplied cluster stack.name
  routed : stack.targetGroup = some (Cloud.targetGroup stack.name)

structure StackRequest.BelongsTo (cluster : String) (request : StackRequest) : Prop where
  supplied : Supplied cluster request.name
  written : ∀ spec, request = .create spec ∨ request = .update spec →
    ∀ stack : Stack, stack.tags = spec.tags → stack.IsOf cluster

namespace Cloud

/-- The clouds agree in all that a pass of the cluster can tell apart. -/
structure AgreeFor (cluster : String) (first second : Cloud) : Prop where
  settlesAtOnce : first.settlesAtOnce = second.settlesAtOnce
  instances : first.instances = second.instances
  failing : first.failing = second.failing
  provisioned : Table.AgreeOn (Supplied cluster) first.provisioned second.provisioned
  applied : Table.AgreeOn (Supplied cluster) first.applied second.applied
  targets : Table.AgreeOn (Routed cluster) first.targets second.targets

/-- The stack is one that some cluster has created: its name was supplied to the cluster that it is
listed for. -/
structure HousedAt (name : StackName) (stack : Stack) : Prop where
  named : stack.name = name
  routed : stack.targetGroup = some (targetGroup name)
  owned : ∃ cluster, Supplied cluster name ∧ stack.IsOf cluster

def Housed (cloud : Cloud) : Prop :=
  ∀ name stack, cloud.provisioned.get? name = some stack → HousedAt name stack

variable {own other : String} {cloud after first second third : Cloud} {createdAt : Instant}
  {request : StackRequest}

theorem agreeFor_refl (cluster : String) (cloud : Cloud) : AgreeFor cluster cloud cloud :=
  ⟨rfl, rfl, rfl, fun _ _ => rfl, fun _ _ => rfl, fun _ _ => rfl⟩

theorem agreeFor_symm (agree : AgreeFor own first second) : AgreeFor own second first where
  settlesAtOnce := agree.settlesAtOnce.symm
  instances := agree.instances.symm
  failing := agree.failing.symm
  provisioned name supplied := (agree.provisioned name supplied).symm
  applied name supplied := (agree.applied name supplied).symm
  targets group routed := (agree.targets group routed).symm

theorem agreeFor_trans (left : AgreeFor own first second) (right : AgreeFor own second third) :
    AgreeFor own first third where
  settlesAtOnce := left.settlesAtOnce.trans right.settlesAtOnce
  instances := left.instances.trans right.instances
  failing := left.failing.trans right.failing
  provisioned name supplied :=
    (left.provisioned name supplied).trans (right.provisioned name supplied)
  applied name supplied := (left.applied name supplied).trans (right.applied name supplied)
  targets group routed := (left.targets group routed).trans (right.targets group routed)

theorem permit_of_agreeFor (agree : AgreeFor own first second) (operation : String) :
    first.permit operation = second.permit operation := by
  rw [permit, permit, agree.failing]

theorem createStack_agreeFor (agree : AgreeFor own first second) (createdAt : Instant)
    {spec : StackSpec} (supplied : Supplied own spec.name) :
    Alongside Eq (AgreeFor own) (first.createStack spec createdAt)
      (second.createStack spec createdAt) := by
  have known := Table.contains_of_agreeOn agree.provisioned supplied
  have grouped : first.targets.contains (targetGroup spec.name)
      = second.targets.contains (targetGroup spec.name) :=
    Table.contains_of_agreeOn agree.targets ⟨spec.name, supplied, rfl⟩
  rw [createStack, createStack, permit_of_agreeFor agree]
  refine alongside_bind (alongside_refl _) ?_
  rintro _ _ rfl
  simp only [known, grouped, agree.settlesAtOnce]
  by_cases present : second.provisioned.contains spec.name = true
  · rw [if_pos present, if_pos present]
    exact .error rfl
  · rw [if_neg present, if_neg present]
    refine .ok ⟨rfl, agree.instances, agree.failing,
      Table.agreeOn_insert agree.provisioned _ _, Table.agreeOn_insert agree.applied _ _, ?_⟩
    simp only
    split
    · exact agree.targets
    · exact Table.agreeOn_insert agree.targets _ _

theorem updateStack_agreeFor (agree : AgreeFor own first second) {spec : StackSpec}
    (supplied : Supplied own spec.name) :
    Alongside Eq (AgreeFor own) (first.updateStack spec) (second.updateStack spec) := by
  rw [updateStack, updateStack, permit_of_agreeFor agree]
  refine alongside_bind (alongside_refl _) ?_
  rintro _ _ rfl
  rw [agree.provisioned spec.name supplied, agree.settlesAtOnce]
  cases second.provisioned.get? spec.name with
  | none => exact .error rfl
  | some stack =>
      simp only
      split
      · exact .error rfl
      · exact .ok ⟨rfl, agree.instances, agree.failing,
          Table.agreeOn_insert agree.provisioned _ _, Table.agreeOn_insert agree.applied _ _,
          agree.targets⟩

theorem scheduleDeletion_agreeFor (agree : AgreeFor own first second) {name : StackName}
    (supplied : Supplied own name) (moment : Instant) :
    Alongside Eq (AgreeFor own) (first.scheduleDeletion name moment)
      (second.scheduleDeletion name moment) := by
  rw [scheduleDeletion, scheduleDeletion, permit_of_agreeFor agree]
  refine alongside_bind (alongside_refl _) ?_
  rintro _ _ rfl
  rw [agree.provisioned name supplied]
  cases second.provisioned.get? name with
  | none => exact .error rfl
  | some stack =>
      exact .ok { agree with provisioned := Table.agreeOn_insert agree.provisioned _ _ }

theorem deleteStack_agreeFor (agree : AgreeFor own first second) {name : StackName}
    (supplied : Supplied own name) :
    Alongside Eq (AgreeFor own) (first.deleteStack name) (second.deleteStack name) := by
  rw [deleteStack, deleteStack, permit_of_agreeFor agree]
  refine alongside_bind (alongside_refl _) ?_
  rintro _ _ rfl
  rw [agree.provisioned name supplied]
  cases second.provisioned.get? name with
  | none => exact .error rfl
  | some stack =>
      refine .ok { agree with
        provisioned := Table.agreeOn_erase agree.provisioned _
        applied := Table.agreeOn_erase agree.applied _
        targets := ?_ }
      cases stack.targetGroup with
      | none => exact agree.targets
      | some group => exact Table.agreeOn_erase agree.targets group

theorem perform_agreeFor (agree : AgreeFor own first second) (createdAt : Instant)
    (supplied : Supplied own request.name) :
    Alongside Eq (AgreeFor own) (first.perform createdAt request)
      (second.perform createdAt request) := by
  cases request with
  | create spec => exact createStack_agreeFor agree createdAt supplied
  | update spec => exact updateStack_agreeFor agree supplied
  | scheduleDeletion name moment => exact scheduleDeletion_agreeFor agree supplied moment
  | delete name => exact deleteStack_agreeFor agree supplied

theorem registered_congr {group : String} (agree : AgreeFor own first second)
    (routed : Routed own group) : first.registered group = second.registered group := by
  rw [registered, registered, agree.targets group routed]

theorem registerTargets_agreeFor {group : String} (agree : AgreeFor own first second)
    (routed : Routed own group) (instances : List InstanceId) :
    Alongside Eq (AgreeFor own) (first.registerTargets group instances)
      (second.registerTargets group instances) := by
  rw [registerTargets, registerTargets, permit_of_agreeFor agree, registered_congr agree routed]
  refine alongside_bind (alongside_refl _) ?_
  rintro _ _ rfl
  exact .ok { agree with targets := Table.agreeOn_insert agree.targets _ _ }

theorem deregisterTargets_agreeFor (agree : AgreeFor own first second) (group : String)
    (instances : List InstanceId) :
    Alongside Eq (AgreeFor own) (first.deregisterTargets group instances)
      (second.deregisterTargets group instances) := by
  rw [deregisterTargets, deregisterTargets, permit_of_agreeFor agree]
  refine alongside_bind (alongside_refl _) ?_
  rintro _ _ rfl
  exact .ok { agree with targets := Table.agreeOn_modify agree.targets _ _ }

theorem perform_foreign (distinct : own ≠ other) (housed : cloud.Housed)
    (foreign : Supplied other request.name)
    (granted : cloud.perform createdAt request = .ok after) : AgreeFor own cloud after := by
  have same := agreeFor_refl own cloud
  have apart := not_supplied distinct foreign
  have unrouted : ¬ Routed own (targetGroup request.name) := not_routed distinct ⟨_, foreign, rfl⟩
  cases request with
  | create spec =>
      obtain ⟨_, rfl⟩ := perform_create granted
      refine { same with
        provisioned := Table.agreeOn_insert_of_not apart _
        applied := Table.agreeOn_insert_of_not apart _
        targets := ?_ }
      simp only
      split
      · exact same.targets
      · exact Table.agreeOn_insert_of_not unrouted _
  | update spec =>
      obtain ⟨_, _, rfl⟩ := perform_update granted
      exact { same with
        provisioned := Table.agreeOn_insert_of_not apart _
        applied := Table.agreeOn_insert_of_not apart _ }
  | scheduleDeletion name moment =>
      obtain ⟨_, _, rfl⟩ := perform_scheduleDeletion granted
      exact { same with provisioned := Table.agreeOn_insert_of_not apart _ }
  | delete name =>
      obtain ⟨stack, found, rfl⟩ := perform_delete granted
      refine { same with
        provisioned := Table.agreeOn_erase_of_not apart
        applied := Table.agreeOn_erase_of_not apart
        targets := ?_ }
      simp only [(housed name stack found).routed, Option.elim_some]
      exact Table.agreeOn_erase_of_not unrouted

theorem housed_of_empty (empty : cloud.provisioned = {}) : cloud.Housed := by
  intro name stack found
  rw [empty] at found
  cases found

theorem perform_housed (housed : cloud.Housed) (belongs : request.BelongsTo own)
    (granted : cloud.perform createdAt request = .ok after) : after.Housed := by
  refine perform_pointwise housed ?_ ?_ ?_ granted
  · rintro spec rfl
    exact ⟨rfl, rfl, own, belongs.supplied, belongs.written spec (.inl rfl) _ rfl⟩
  · rintro spec stack rfl before
    exact ⟨before.named, before.routed, own, belongs.supplied,
      belongs.written spec (.inr rfl) _ rfl⟩
  · rintro name moment stack rfl ⟨named, routed, cluster, supplied, listed⟩
    exact ⟨named, routed, cluster, supplied, Stack.isOf_schedule.mpr listed⟩

variable {start : Cloud} {requests : List StackRequest}

theorem performs_housed (housed : start.Housed)
    (belongs : ∀ request ∈ requests, request.BelongsTo own)
    (performs : Performs createdAt start requests cloud) : cloud.Housed := by
  induction performs with
  | none => exact housed
  | next _ granted ih =>
      have before := ih fun request member => belongs request (List.mem_append_left _ member)
      exact perform_housed before (belongs _ (by simp)) granted

theorem performs_foreign (distinct : own ≠ other) (housed : start.Housed)
    (belongs : ∀ request ∈ requests, request.BelongsTo other)
    (performs : Performs createdAt start requests cloud) : AgreeFor own start cloud := by
  induction performs with
  | none => exact agreeFor_refl own start
  | next performs granted ih =>
      have earlier := fun request member => belongs request (List.mem_append_left _ member)
      have last := belongs _ (List.mem_append_right _ (.head _))
      exact agreeFor_trans (ih earlier) (perform_foreign distinct
        (performs_housed housed earlier performs) last.supplied granted)

theorem supplied_of_isOf {name : StackName} {stack : Stack} (housed : HousedAt name stack)
    (listed : stack.IsOf own) : Supplied own name := by
  obtain ⟨cluster, supplied, listed'⟩ := housed.owned
  obtain rfl : own = cluster := Option.some.inj (listed.2.symm.trans listed'.2)
  exact supplied

theorem ofCluster_congr (agree : AgreeFor own first second) (housed : first.Housed)
    (housed' : second.Housed) : first.ofCluster own = second.ofCluster own := by
  let keep (_ : StackName) (stack : Stack) : Bool :=
    stack.tags.contains Tag.application && Tags.clusterId? stack.tags = some own
  have filtered (cloud : Cloud) : cloud.ofCluster own = (cloud.provisioned.filter keep).values :=
    List.filter_map ..
  have vanishes {cloud : Cloud} (housed : cloud.Housed) {name : StackName}
      (foreign : ¬ Supplied own name) : (cloud.provisioned.filter keep).get? name = none := by
    rw [Table.get?_filter, Option.filter_eq_none_iff]
    intro stack found kept
    have listed : stack.IsOf own := by simpa [keep, Stack.IsOf] using kept
    exact foreign (supplied_of_isOf (housed name stack found) listed)
  have same : first.provisioned.filter keep = second.provisioned.filter keep := by
    apply Table.ext_get?
    intro name
    by_cases supplied : Supplied own name
    · rw [Table.get?_filter, Table.get?_filter, agree.provisioned name supplied]
    · rw [vanishes housed supplied, vanishes housed' supplied]
  rw [filtered, filtered, same]

theorem listStacks_congr (agree : AgreeFor own first second) (housed : first.Housed)
    (housed' : second.Housed) : first.listStacks own = second.listStacks own := by
  have listing (cloud : Cloud) : cloud.listStacks own = (do
      cloud.permit "list_tagged_stacks"
      return cloud.ofCluster own) := rfl
  rw [listing, listing, permit_of_agreeFor agree, ofCluster_congr agree housed housed']

theorem listed_belongs {listed : List Stack} (housed : cloud.Housed)
    (listing : cloud.listStacks own = .ok listed) : ∀ stack ∈ listed, stack.BelongsTo own := by
  intro stack member
  obtain rfl : cloud.ofCluster own = listed := Except.ok.inj (permit_bind_eq_ok listing)
  obtain ⟨⟨name, found⟩, listed⟩ := mem_ofCluster.mp member
  have here := housed name stack found
  obtain rfl := here.named
  exact ⟨supplied_of_isOf here listed, here.routed⟩

end Cloud

end IngressControl
