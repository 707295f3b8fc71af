import IngressControl.Proofs.Descriptor.Record
import IngressControl.Proofs.Pass.Stacks
/-!
What one step of the work on stacks leaves behind when the cloud grants every request.

A wanted load balancer is carried by a stack that records it, under the name it had or a fresh one.
An orphan is gone, or lingers with all that is observed of it but perhaps its deletion time, and is
kept from then on. No other stack is touched.
-/

namespace IngressControl

namespace Cloud

/-- Every operation is permitted, and new and updated stacks are complete at once. -/
structure Able (cloud : Cloud) : Prop where
  unfailing : cloud.failing = {}
  settling : cloud.settlesAtOnce = true

variable {cloud : Cloud}

theorem permit_of_able (able : cloud.Able) (operation : String) :
    cloud.permit operation = .ok () :=
  permit_of_unfailing able.unfailing operation

theorem create_granted (able : cloud.Able) {spec : StackSpec}
    (unused : cloud.provisioned.get? spec.name = none) (createdAt : Instant) :
    ∃ after stack, cloud.perform createdAt (.create spec) = .ok after ∧ after.Able ∧
      after.provisioned.get? spec.name = some stack ∧ stack.tags = spec.tags ∧
      stack.status.isComplete = true := by
  have absent : cloud.provisioned.contains spec.name = false := by simp [Table.contains, unused]
  obtain ⟨after, granted⟩ : ∃ after, cloud.perform createdAt (.create spec) = .ok after := by
    rw [perform, createStack, permit_of_able able]
    simp only [absent]
    exact ⟨_, rfl⟩
  have effect := granted
  rw [perform, createStack, permit_of_able able] at effect
  simp only [absent] at effect
  cases effect
  refine ⟨_, _, granted, ⟨able.unfailing, able.settling⟩, Table.get?_insert_self .., rfl, ?_⟩
  rw [able.settling]
  rfl

theorem update_granted (able : cloud.Able) {spec : StackSpec} {stack : Stack}
    (present : cloud.provisioned.get? spec.name = some stack)
    (idle : stack.status.isInProgress = false) (createdAt : Instant) :
    ∃ after stack, cloud.perform createdAt (.update spec) = .ok after ∧ after.Able ∧
      after.provisioned.get? spec.name = some stack ∧ stack.tags = spec.tags ∧
      stack.status.isComplete = true := by
  obtain ⟨after, granted⟩ : ∃ after, cloud.perform createdAt (.update spec) = .ok after := by
    rw [perform, updateStack, permit_of_able able]
    simp only [present, idle]
    exact ⟨_, rfl⟩
  have effect := granted
  rw [perform, updateStack, permit_of_able able] at effect
  simp only [present, idle] at effect
  cases effect
  refine ⟨_, _, granted, ⟨able.unfailing, able.settling⟩, Table.get?_insert_self .., rfl, ?_⟩
  rw [able.settling]
  rfl

theorem schedule_granted (able : cloud.Able) {name : StackName} {stack : Stack}
    (present : cloud.provisioned.get? name = some stack) (moment createdAt : Instant) :
    ∃ after, cloud.perform createdAt (.scheduleDeletion name moment) = .ok after ∧ after.Able ∧
      after.provisioned.get? name = some (stack.schedule moment) := by
  obtain ⟨after, granted⟩ :
      ∃ after, cloud.perform createdAt (.scheduleDeletion name moment) = .ok after := by
    rw [perform, scheduleDeletion, permit_of_able able]
    simp only [present]
    exact ⟨_, rfl⟩
  have effect := granted
  rw [perform, scheduleDeletion, permit_of_able able] at effect
  simp only [present] at effect
  cases effect
  exact ⟨_, granted, ⟨able.unfailing, able.settling⟩, Table.get?_insert_self ..⟩

theorem delete_granted (able : cloud.Able) {name : StackName} {stack : Stack}
    (present : cloud.provisioned.get? name = some stack) (createdAt : Instant) :
    ∃ after, cloud.perform createdAt (.delete name) = .ok after ∧ after.Able ∧
      after.provisioned.get? name = none := by
  obtain ⟨after, granted⟩ : ∃ after, cloud.perform createdAt (.delete name) = .ok after := by
    rw [perform, deleteStack, permit_of_able able]
    simp only [present]
    exact ⟨_, rfl⟩
  have effect := granted
  rw [perform, deleteStack, permit_of_able able] at effect
  simp only [present] at effect
  cases effect
  exact ⟨_, granted, ⟨able.unfailing, able.settling⟩, Table.get?_erase_self ..⟩

end Cloud

namespace Descriptor

/-- What is known of a load balancer comes from its stack and can be recorded there. -/
structure Faithful (cluster : String) (descriptor : Descriptor) : Prop where
  recordable : descriptor.Recordable
  storable : descriptor.Storable
  rooted : ∀ observed, descriptor.existing = some observed → descriptor.Rooted observed
  reflects : ∀ observed, descriptor.existing = some observed → observed.Reflects observed.stack
  listed : ∀ observed, descriptor.existing = some observed → observed.stack.IsOf cluster

def Complete (descriptor : Descriptor) : Prop :=
  ∀ observed, descriptor.existing = some observed → observed.stack.status.isComplete = true

def site (descriptor : Descriptor) (fresh : StackName) : StackName :=
  descriptor.stackName?.getD fresh

theorem site_of_none {descriptor : Descriptor} (new : descriptor.existing = none)
    (fresh : StackName) : descriptor.site fresh = fresh := by
  rw [site, stackName?, new]
  rfl

theorem site_of_some {descriptor : Descriptor} {existing : ObservedStack}
    (old : descriptor.existing = some existing) (fresh : StackName) :
    descriptor.site fresh = existing.name := by
  rw [site, stackName?, old]
  rfl

theorem spec_name {descriptor : Descriptor} {name : StackName} {cluster : String} {now : Instant}
    {grace : Span} {spec : StackSpec}
    (requested : descriptor.spec name cluster now grace = .ok spec) : spec.name = name := by
  obtain ⟨_, _, same⟩ := Attempt.bind_eq_ok_iff.mp requested
  cases same
  rfl

end Descriptor

namespace Cloud

def Shows (cloud : Cloud) (descriptor : Descriptor) : Prop :=
  ∀ observed, descriptor.existing = some observed →
    cloud.provisioned.get? observed.name = some observed.stack

structure Presents (cluster : String) (cloud : Cloud) (name : StackName)
    (observed : ObservedStack) : Prop where
  found : cloud.provisioned.get? name = some observed.stack
  listed : observed.stack.IsOf cluster
  reflects : observed.Reflects observed.stack

theorem presents_unique {cluster : String} {cloud : Cloud} {name : StackName}
    {first second : ObservedStack} (presents : cloud.Presents cluster name first)
    (presents' : cloud.Presents cluster name second) : first = second := by
  have same : first.stack = second.stack :=
    Option.some.inj (presents.found.symm.trans presents'.found)
  exact ObservedStack.reflects_unique presents.reflects (same ▸ presents'.reflects)

def Carries (cluster : String) (now later : Instant) (cloud : Cloud) (descriptor : Descriptor)
    (name : StackName) : Prop :=
  ∃ observed, cloud.Presents cluster name observed ∧ observed.stack.status.isComplete = true ∧
    descriptor.Records now later observed

theorem carries_of_same {cluster : String} {now later : Instant} {before after : Cloud}
    {descriptor : Descriptor} {name : StackName}
    (carries : before.Carries cluster now later descriptor name)
    (same : after.provisioned.get? name = before.provisioned.get? name) :
    after.Carries cluster now later descriptor name := by
  obtain ⟨observed, ⟨found, listed, reflects⟩, rest⟩ := carries
  exact ⟨observed, ⟨same.trans found, listed, reflects⟩, rest⟩

theorem carries_of_tagged {cluster : String} {now later : Instant} {cloud : Cloud}
    {descriptor : Descriptor} {name : StackName} {stack : Stack} {observed : ObservedStack}
    (found : cloud.provisioned.get? name = some stack) (listed : stack.IsOf cluster)
    (reflects : observed.Reflects stack) (complete : stack.status.isComplete = true)
    (records : descriptor.Records now later observed) :
    cloud.Carries cluster now later descriptor name := by
  obtain rfl := reflects.stack_eq
  exact ⟨observed, ⟨found, listed, reflects⟩, complete, records⟩

end Cloud

namespace StackWork

variable {policy : StackPolicy} {now later : Instant} {work : StackWork}

theorem apply_granted {cloud : Cloud} {request : StackRequest} (scope : String)
    (count : StackChanges → StackChanges) (live : policy.dryRun = false)
    (granted : work.cloud.perform policy.createdAt request = .ok cloud) :
    (work.apply policy scope count (.request request)).cloud = cloud ∧
      (work.apply policy scope count (.request request)).created = (work.note request).created := by
  have noted : (work.note request).cloud.perform policy.createdAt request = .ok cloud := granted
  rw [apply, live, issue]
  simp only [noted, Bool.false_eq_true, ↓reduceIte, and_self]

structure Reconciled (policy : StackPolicy) (now later : Instant) (work : StackWork)
    (descriptor : Descriptor) (after : StackWork) : Prop where
  able : after.cloud.Able
  created : after.created
    = if descriptor.existing.isSome then work.created else work.created + 1
  carried : after.cloud.Carries policy.cluster now later descriptor
    (descriptor.site (policy.freshName work.created))
  elsewhere : ∀ name, name ≠ descriptor.site (policy.freshName work.created) →
    after.cloud.provisioned.get? name = work.cloud.provisioned.get? name

theorem reconciled_of_granted {descriptor : Descriptor} {action : DesiredAction}
    {request : StackRequest} {cloud : Cloud} (live : policy.dryRun = false)
    (planned : descriptor.plan now policy.grace = .ok action)
    (moved : descriptor.move policy (policy.freshName work.created) now action
      = .ok (.request request))
    (granted : work.cloud.perform policy.createdAt request = .ok cloud) (able : cloud.Able)
    (named : request.name = descriptor.site (policy.freshName work.created))
    (counted : (work.note request).created
      = if descriptor.existing.isSome then work.created else work.created + 1)
    (carried : cloud.Carries policy.cluster now later descriptor request.name) :
    ∃ after, reconcile policy now work descriptor = .ok after ∧
      Reconciled policy now later work descriptor after := by
  obtain ⟨same, created⟩ := apply_granted descriptor.scope
    (fun changes => changes.countDesired action) live granted
  have done : reconcile policy now work descriptor = .ok (work.apply policy descriptor.scope
      (fun changes => changes.countDesired action) (.request request)) := by
    rw [reconcile, planned]
    simp only [bind, Except.bind, moved]
    rfl
  refine ⟨_, done, ?_⟩
  constructor
  · rw [same]
    exact able
  · rw [created, counted]
  · rw [same, ← named]
    exact carried
  · intro name differs
    rw [same]
    exact Cloud.perform_elsewhere granted (named ▸ differs)

theorem reconcile_started {descriptor : Descriptor} (live : policy.dryRun = false)
    (horizon : Horizon now later policy.grace) (able : work.cloud.Able)
    (faithful : descriptor.Faithful policy.cluster) (new : descriptor.existing = none)
    (unused : work.cloud.provisioned.get? (policy.freshName work.created) = none) :
    ∃ after, reconcile policy now work descriptor = .ok after ∧
      Reconciled policy now later work descriptor after := by
  obtain ⟨spec, requested, _⟩ :=
    descriptor.spec_certificates (policy.freshName work.created) policy.cluster horizon.ends
  have called := Descriptor.spec_name requested
  have site := Descriptor.site_of_none new (policy.freshName work.created)
  obtain ⟨cloud, stack, granted, cloud_able, found, tagged, complete⟩ :=
    Cloud.create_granted able (called ▸ unused) policy.createdAt
  obtain ⟨listed, observed, reflects, records⟩ := Descriptor.records_of_spec horizon
    faithful.storable faithful.recordable requested tagged
  refine reconciled_of_granted live (by rw [Descriptor.plan, new]) ?_ granted cloud_able
    (called.trans site.symm) (by rw [new]; rfl)
    (Cloud.carries_of_tagged found listed reflects complete records)
  rw [Descriptor.move, requested]
  rfl

theorem reconcile_existing {descriptor : Descriptor} {existing : ObservedStack}
    (live : policy.dryRun = false) (horizon : Horizon now later policy.grace)
    (able : work.cloud.Able) (faithful : descriptor.Faithful policy.cluster)
    (old : descriptor.existing = some existing) (complete : existing.stack.status.isComplete = true)
    (shows : work.cloud.provisioned.get? existing.name = some existing.stack) :
    ∃ after, reconcile policy now work descriptor = .ok after ∧
      Reconciled policy now later work descriptor after := by
  obtain ⟨unfailed, idle, undeleted⟩ := StackStatus.isComplete_iff.mp complete
  have site := Descriptor.site_of_some old (policy.freshName work.created)
  obtain ⟨schedule, desired, _⟩ := descriptor.desiredCertificates_get? horizon.ends
  have drift : descriptor.drift now policy.grace = .ok (descriptor.driftFrom existing schedule) := by
    rw [Descriptor.drift, old]
    simp only [desired, Except.map]
  have plan : descriptor.plan now policy.grace
      = .ok (if (descriptor.driftFrom existing schedule).isEmpty then .inSync
          else .update (descriptor.driftFrom existing schedule)) := by
    rw [Descriptor.plan, old]
    simp only [unfailed, idle, undeleted, drift, Except.map, Bool.or_self, Bool.false_eq_true,
      ↓reduceIte]
  cases parts : descriptor.driftFrom existing schedule with
  | nil =>
      rw [parts] at drift plan
      have records := Descriptor.records_of_drift_eq_nil horizon
        (faithful.storable existing old) (faithful.rooted existing old) drift
      have done : reconcile policy now work descriptor = .ok (work.apply policy descriptor.scope
          (fun changes => changes.countDesired .inSync) .nothing) := by
        rw [reconcile, plan]
        rfl
      refine ⟨_, done, able, by rw [old]; rfl, ?_, fun _ _ => rfl⟩
      rw [site]
      exact ⟨existing, ⟨shows, faithful.listed existing old, faithful.reflects existing old⟩, complete,
        records⟩
  | cons part parts' =>
      rw [parts] at plan
      obtain ⟨spec, requested, _⟩ :=
        descriptor.spec_certificates existing.name policy.cluster horizon.ends
      have called := Descriptor.spec_name requested
      obtain ⟨cloud, stack, granted, cloud_able, found, tagged, finished⟩ :=
        Cloud.update_granted able (called ▸ shows) idle policy.createdAt
      obtain ⟨listed, observed, reflects, records⟩ := Descriptor.records_of_spec horizon
        faithful.storable faithful.recordable requested tagged
      refine reconciled_of_granted live plan ?_ granted cloud_able (called.trans site.symm)
        (by rw [old]; rfl) (Cloud.carries_of_tagged found listed reflects finished records)
      simp only [List.isEmpty_cons, Bool.false_eq_true, ↓reduceIte, Descriptor.move, old, requested]
      rfl

structure Lingers (orphan lingering : ObservedStack) : Prop where
  key : lingering.key = orphan.key
  shared : lingering.shared = orphan.shared
  owner : lingering.owner = orphan.owner
  certificates : lingering.certificates = orphan.certificates
  status : lingering.stack.status = orphan.stack.status

/-- The orphan is gone as planned, or lingers and is kept from now on. -/
def Leaves (cluster : String) (now : Instant) (grace : Span) (cloud : Cloud)
    (orphan : ObservedStack) : Prop :=
  (orphan.planOrphan now grace = .ok .delete ∧ cloud.provisioned.get? orphan.name = none) ∨
    ∃ lingering, cloud.Presents cluster orphan.name lingering ∧ Lingers orphan lingering ∧
      lingering.planOrphan now grace = .ok .keep

structure Cleaned (policy : StackPolicy) (now : Instant) (work : StackWork) (orphan : ObservedStack)
    (after : StackWork) : Prop where
  able : after.cloud.Able
  left : Leaves policy.cluster now policy.grace after.cloud orphan
  elsewhere : ∀ name, name ≠ orphan.name →
    after.cloud.provisioned.get? name = work.cloud.provisioned.get? name

theorem cleaned_of_granted {orphan : ObservedStack} {action : OrphanAction}
    {request : StackRequest} {cloud : Cloud} (live : policy.dryRun = false)
    (planned : orphan.planOrphan now policy.grace = .ok action)
    (moved : orphan.move action = .request request)
    (granted : work.cloud.perform policy.createdAt request = .ok cloud) (able : cloud.Able)
    (named : request.name = orphan.name)
    (left : Leaves policy.cluster now policy.grace cloud orphan) :
    ∃ after, cleanUp policy now work orphan = .ok after ∧
      Cleaned policy now work orphan after := by
  obtain ⟨same, _⟩ := apply_granted ("stack " ++ orphan.name)
    (fun changes => changes.countOrphan action) live granted
  have done : cleanUp policy now work orphan = .ok (work.apply policy ("stack " ++ orphan.name)
      (fun changes => changes.countOrphan action) (.request request)) := by
    rw [cleanUp, planned, ← moved]
    rfl
  refine ⟨_, done, ?_⟩
  constructor
  · rw [same]
    exact able
  · rw [same]
    exact left
  · intro name differs
    rw [same]
    exact Cloud.perform_elsewhere granted (named ▸ differs)

theorem cleanUp_cleaned {orphan : ObservedStack} (live : policy.dryRun = false)
    (horizon : Horizon now later policy.grace) (able : work.cloud.Able)
    (reflects : orphan.Reflects orphan.stack) (listed : orphan.stack.IsOf policy.cluster)
    (shows : work.cloud.provisioned.get? orphan.name = some orphan.stack) :
    ∃ after, cleanUp policy now work orphan = .ok after ∧
      Cleaned policy now work orphan after := by
  obtain ⟨action, planned⟩ := orphan.planOrphan_ok horizon.ends
  cases action with
  | keep =>
      have done : cleanUp policy now work orphan = .ok (work.apply policy ("stack " ++ orphan.name)
          (fun changes => changes.countOrphan .keep) .nothing) := by
        rw [cleanUp, planned]
        rfl
      exact ⟨_, done, able, .inr ⟨orphan, ⟨shows, listed, reflects⟩, ⟨rfl, rfl, rfl, rfl, rfl⟩,
        planned⟩, fun _ _ => rfl⟩
  | delete =>
      obtain ⟨cloud, granted, cloud_able, gone⟩ :=
        Cloud.delete_granted able shows policy.createdAt
      exact cleaned_of_granted live planned rfl granted cloud_able rfl (.inl ⟨planned, gone⟩)
  | schedule moment =>
      obtain ⟨cloud, granted, cloud_able, found⟩ :=
        Cloud.schedule_granted able shows moment policy.createdAt
      obtain ⟨undeleted, unfailed, ends⟩ := ObservedStack.planOrphan_schedule planned
      obtain rfl : moment = later := Option.some.inj (ends.symm.trans horizon.ends)
      refine cleaned_of_granted live planned rfl granted cloud_able rfl <| .inr ⟨_, ⟨found,
        Stack.isOf_schedule.mpr listed, Stack.reflects_schedule reflects horizon.plain⟩,
        ⟨rfl, rfl, rfl, rfl, rfl⟩, ?_⟩
      -- The end of the grace period lies ahead, also as it is read back.
      have ahead := Instant.now_lt_stamped horizon.long horizon.ends
      have pending : ¬ moment.stamped ≤ now := fun passed => Instant.not_lt.mpr passed ahead
      simp only [ObservedStack.planOrphan, Stack.schedule, undeleted, unfailed, pending,
        Bool.false_eq_true, false_and, ↓reduceIte]

end StackWork

end IngressControl
