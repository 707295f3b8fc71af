import IngressControl.Proofs.Pass.Comparison
import IngressControl.Proofs.Pass.Cutover
import IngressControl.Proofs.Pass.Outcome
import IngressControl.Proofs.Pass.Overhaul
/-!
What a dry run leaves alone, and what it foresees.

A dry run decides all that a real pass decides and counts it as done. The real pass does it, one
request after the other; as long as nothing that changes the cloud is set to fail and the names of
new stacks are free, each request still finds its stack as it was listed and is granted. So both
report the same, but for addresses that are reported already: the dry run counts them as updates.
-/

namespace IngressControl

open Attempt

namespace Cloud

variable {cloud after : Cloud} {createdAt : Instant} {request : StackRequest}

def mutations : List String :=
  ["create_stack", "update_stack", "schedule_stack_deletion", "delete_stack", "register_targets",
    "deregister_targets"]

def Willing (cloud : Cloud) : Prop :=
  ∀ operation ∈ mutations, cloud.failing.contains operation = false

theorem permit_of_willing (willing : cloud.Willing) {operation : String}
    (mutation : operation ∈ mutations) : cloud.permit operation = .ok () := by
  rw [permit, willing operation mutation]
  rfl

theorem willing_of_failing (willing : cloud.Willing) (same : after.failing = cloud.failing) :
    after.Willing := by
  intro operation mutation
  rw [same]
  exact willing operation mutation

def Admits (cloud : Cloud) : StackRequest → Prop
  | .create spec => cloud.provisioned.get? spec.name = none
  | .update spec => ∃ stack, cloud.provisioned.get? spec.name = some stack ∧
      stack.status.isInProgress = false
  | .scheduleDeletion name _ => ∃ stack, cloud.provisioned.get? name = some stack
  | .delete name => ∃ stack, cloud.provisioned.get? name = some stack

theorem perform_of_admits (willing : cloud.Willing) (admits : cloud.Admits request)
    (createdAt : Instant) : ∃ after, cloud.perform createdAt request = .ok after := by
  cases request with
  | create spec =>
      have absent : cloud.provisioned.contains spec.name = false := by
        rw [Table.contains, show cloud.provisioned.get? spec.name = none from admits]
        rfl
      rw [perform, createStack, permit_of_willing willing (by decide)]
      simp only [absent]
      exact ⟨_, rfl⟩
  | update spec =>
      obtain ⟨stack, found, idle⟩ := admits
      rw [perform, updateStack, permit_of_willing willing (by decide)]
      simp only [found, idle]
      exact ⟨_, rfl⟩
  | scheduleDeletion name moment =>
      obtain ⟨stack, found⟩ := admits
      rw [perform, scheduleDeletion, permit_of_willing willing (by decide)]
      simp only [found]
      exact ⟨_, rfl⟩
  | delete name =>
      obtain ⟨stack, found⟩ := admits
      rw [perform, deleteStack, permit_of_willing willing (by decide)]
      simp only [found]
      exact ⟨_, rfl⟩

end Cloud

def StackPolicy.rehearsal (policy : StackPolicy) : StackPolicy := { policy with dryRun := true }

theorem Descriptor.spec_alongside (descriptor : Descriptor) (name name' : StackName)
    (cluster : String) (now : Instant) (grace : Span) :
    Alongside Eq (fun _ spec' => spec'.name = name') (descriptor.spec name cluster now grace)
      (descriptor.spec name' cluster now grace) := by
  refine alongside_bind (alongside_refl (descriptor.desiredCertificates now grace)) ?_
  rintro schedule _ rfl
  exact .ok rfl

theorem Descriptor.plan_update {descriptor : Descriptor} {existing : ObservedStack}
    {now : Instant} {grace : Span} {drift : List Drift} (old : descriptor.existing = some existing)
    (planned : descriptor.plan now grace = .ok (.update drift)) :
    existing.stack.status.isInProgress = false := by
  rw [plan, old] at planned
  simp only at planned
  split at planned
  · cases planned
  · split at planned
    · cases planned
    · rename_i settled
      simp only [Bool.or_eq_true, not_or, Bool.not_eq_true] at settled
      exact settled.1

theorem Descriptor.move_create {descriptor : Descriptor} {policy : StackPolicy}
    {fresh : StackName} {now : Instant} {spec : StackSpec}
    (requested : descriptor.spec fresh policy.cluster now policy.grace = .ok spec) :
    descriptor.move policy fresh now .create = .ok (.request (.create spec)) := by
  rw [move, requested]
  rfl

theorem Descriptor.move_create_error {descriptor : Descriptor} {policy : StackPolicy}
    {fresh : StackName} {now : Instant} {overflow : TimeOverflow}
    (failed : descriptor.spec fresh policy.cluster now policy.grace = .error overflow) :
    descriptor.move policy fresh now .create = .error overflow := by
  rw [move, failed]
  rfl

namespace StackWork

variable {policy : StackPolicy} {now : Instant} {work : StackWork}

theorem apply_dry (dry : policy.dryRun = true) (scope : String)
    (count : StackChanges → StackChanges) (move : Move) :
    (work.apply policy scope count move).cloud = work.cloud := by
  cases move with
  | nothing => rfl
  | refuse failure => rfl
  | request request => rw [apply, if_pos dry]

theorem reconcileAll_dry (dry : policy.dryRun = true) (now : Instant) (work : StackWork)
    (descriptors : List Descriptor) :
    (reached (reconcileAll policy now work descriptors)).cloud = work.cloud := by
  have kept (current after : StackWork) (descriptor : Descriptor) (_ : descriptor ∈ descriptors)
      (same : current.cloud = work.cloud)
      (done : reconcile policy now current descriptor = .ok after) : after.cloud = work.cloud := by
    obtain ⟨_, _, done⟩ := bind_eq_ok_iff.mp done
    obtain ⟨_, _, done⟩ := bind_eq_ok_iff.mp done
    cases done
    rw [apply_dry dry, same]
  exact each_induction kept work rfl

theorem cleanUpAll_dry (dry : policy.dryRun = true) (now : Instant) (work : StackWork)
    (orphans : List ObservedStack) :
    (reached (cleanUpAll policy now work orphans)).cloud = work.cloud := by
  have kept (current after : StackWork) (orphan : ObservedStack) (_ : orphan ∈ orphans)
      (same : current.cloud = work.cloud)
      (done : cleanUp policy now current orphan = .ok after) : after.cloud = work.cloud := by
    obtain ⟨_, _, done⟩ := bind_eq_ok_iff.mp done
    cases done
    rw [apply_dry dry, same]
  exact each_induction kept work rfl

theorem apply_of_granted {cloud : Cloud} {request : StackRequest} (scope : String)
    (count : StackChanges → StackChanges) (live : policy.dryRun = false)
    (granted : work.cloud.perform policy.createdAt request = .ok cloud) :
    work.apply policy scope count (.request request) = { work.note request with
      cloud, granted := work.granted ++ [request], changes := count work.changes } := by
  have noted : (work.note request).cloud.perform policy.createdAt request = .ok cloud := granted
  rw [apply, live, issue]
  simp only [noted, Bool.false_eq_true, ↓reduceIte]
  rfl

/-- The work that is foreseen counts as the actual one, which finds all stacks that are still to be
handled as they were listed and enough names for new ones. -/
structure Foretold (freshName : Nat → StackName) (limit : Nat) (pending : List ObservedStack)
    (vacancies : Nat) (foreseen actual : StackWork) : Prop where
  changes : actual.changes = foreseen.changes
  problems : actual.problems = foreseen.problems
  failing : actual.cloud.failing = foreseen.cloud.failing
  willing : actual.cloud.Willing
  standing : ∀ observed ∈ pending,
    actual.cloud.provisioned.get? observed.name = some observed.stack
  apart : (pending.map ObservedStack.name).Nodup
  spares : actual.cloud.Spares freshName actual.created limit
  enough : actual.created + vacancies ≤ limit

section Foretold

variable {freshName : Nat → StackName} {limit vacancies : Nat} {own : ObservedStack}
  {pending : List ObservedStack} {foreseen actual : StackWork}

theorem rehearsed_apply (scope : String) (count : StackChanges → StackChanges)
    (request : StackRequest) : foreseen.apply policy.rehearsal scope count (.request request)
      = { foreseen with changes := count foreseen.changes } := by
  rw [apply, if_pos (show policy.rehearsal.dryRun = true from rfl)]

theorem foretold_nothing (foretold : Foretold freshName limit pending vacancies foreseen actual)
    (scope : String) (count : StackChanges → StackChanges) :
    Foretold freshName limit pending vacancies (foreseen.apply policy.rehearsal scope count .nothing)
      (actual.apply policy scope count .nothing) :=
  { foretold with changes := congrArg count foretold.changes }

theorem foretold_refuse (foretold : Foretold freshName limit pending vacancies foreseen actual)
    (scope : String) (count : StackChanges → StackChanges) (failure : Failure) :
    Foretold freshName limit pending vacancies
      (foreseen.apply policy.rehearsal scope count (.refuse failure))
      (actual.apply policy scope count (.refuse failure)) :=
  { foretold with problems := congrArg (· ++ [(⟨scope, failure⟩ : Problem)]) foretold.problems }

theorem foretold_tail
    (foretold : Foretold freshName limit (own :: pending) vacancies foreseen actual) :
    Foretold freshName limit pending vacancies foreseen actual :=
  { foretold with
    standing := fun observed member => foretold.standing observed (.tail _ member)
    apart := (List.nodup_cons.mp foretold.apart).2 }

theorem foretold_create (live : policy.dryRun = false)
    (foretold : Foretold freshName limit pending (vacancies + 1) foreseen actual)
    {spec : StackSpec} (named : spec.name = freshName actual.created) (other : StackRequest)
    (scope : String) (count : StackChanges → StackChanges) :
    Foretold freshName limit pending vacancies
      (foreseen.apply policy.rehearsal scope count (.request other))
      (actual.apply policy scope count (.request (.create spec))) := by
  have within : actual.created < limit := by have := foretold.enough; omega
  have unused := foretold.spares.unused _ (Nat.le_refl _) within
  have admits : actual.cloud.Admits (.create spec) := by
    rw [Cloud.Admits, named]
    exact unused
  obtain ⟨after, granted⟩ := Cloud.perform_of_admits foretold.willing admits policy.createdAt
  have elsewhere {name : StackName} (differs : name ≠ freshName actual.created) :
      after.provisioned.get? name = actual.cloud.provisioned.get? name := by
    refine Cloud.perform_elsewhere granted ?_
    rwa [StackRequest.name, named]
  rw [rehearsed_apply, apply_of_granted scope count live granted]
  refine ⟨congrArg count foretold.changes, foretold.problems,
    (Cloud.perform_failing granted).trans foretold.failing,
    Cloud.willing_of_failing foretold.willing (Cloud.perform_failing granted), ?_, foretold.apart,
    ?_, ?_⟩
  · intro observed member
    have found := foretold.standing observed member
    rw [← found]
    refine elsewhere fun same => ?_
    rw [same, unused] at found
    cases found
  · refine Cloud.spares_of_kept foretold.spares (Nat.le_succ _) fun number low below => ?_
    refine elsewhere fun same => ?_
    have equal := foretold.spares.injective _ _ (Nat.le_of_succ_le low) below (Nat.le_refl _) within
      same
    exact absurd equal (Nat.ne_of_gt low)
  · have enough := foretold.enough
    simp only [note]
    omega

theorem foretold_existing (live : policy.dryRun = false)
    (foretold : Foretold freshName limit (own :: pending) vacancies foreseen actual)
    (request : StackRequest) (named : request.name = own.name)
    (uncreated : ∀ spec, request ≠ .create spec) (admits : actual.cloud.Admits request)
    (scope : String) (count : StackChanges → StackChanges) :
    Foretold freshName limit pending vacancies
      (foreseen.apply policy.rehearsal scope count (.request request))
      (actual.apply policy scope count (.request request)) := by
  obtain ⟨after, granted⟩ := Cloud.perform_of_admits foretold.willing admits policy.createdAt
  have elsewhere {name : StackName} (differs : name ≠ own.name) :
      after.provisioned.get? name = actual.cloud.provisioned.get? name :=
    Cloud.perform_elsewhere granted (named ▸ differs)
  have created : (actual.note request).created = actual.created := by
    cases request with
    | create spec => exact absurd rfl (uncreated spec)
    | update spec => rfl
    | scheduleDeletion name moment => rfl
    | delete name => rfl
  have found := foretold.standing own (.head _)
  obtain ⟨foreign, apart⟩ := List.nodup_cons.mp foretold.apart
  rw [rehearsed_apply, apply_of_granted scope count live granted]
  refine ⟨congrArg count foretold.changes, foretold.problems,
    (Cloud.perform_failing granted).trans foretold.failing,
    Cloud.willing_of_failing foretold.willing (Cloud.perform_failing granted), ?_, apart, ?_, ?_⟩
  · intro observed member
    rw [← foretold.standing observed (.tail _ member)]
    exact elsewhere fun same => foreign (same ▸ List.mem_map_of_mem member)
  · simp only [created]
    refine Cloud.spares_of_kept foretold.spares (Nat.le_refl _) fun number low below => ?_
    refine elsewhere fun same => ?_
    have unused := foretold.spares.unused number low below
    rw [same, found] at unused
    cases unused
  · simp only [created]
    exact foretold.enough

end Foretold

section Steps

variable {limit : Nat} {foreseen actual : StackWork}

theorem reconcile_of_plan {descriptor : Descriptor} {action : DesiredAction}
    (planned : descriptor.plan now policy.grace = .ok action) (work : StackWork) :
    reconcile policy now work descriptor
      = (descriptor.move policy (policy.freshName work.created) now action >>= fun move =>
        pure (work.apply policy descriptor.scope (fun changes => changes.countDesired action)
          move)) := by
  rw [reconcile, planned]
  rfl

theorem reconcile_new_foretold (live : policy.dryRun = false) {descriptor : Descriptor}
    (new : descriptor.existing = none) {pending : List ObservedStack} {vacancies : Nat}
    (foretold : Foretold policy.freshName limit pending (vacancies + 1) foreseen actual) :
    Alongside Eq (Foretold policy.freshName limit pending vacancies)
      (reconcile policy.rehearsal now foreseen descriptor) (reconcile policy now actual descriptor) := by
  have planned : descriptor.plan now policy.grace = .ok .create := by rw [Descriptor.plan, new]
  have rehearsed : descriptor.plan now policy.rehearsal.grace = .ok .create := planned
  rw [reconcile_of_plan rehearsed, reconcile_of_plan planned]
  -- The two names for the new stack may differ, which the dry run does not show.
  rcases alongside_cases (descriptor.spec_alongside (policy.freshName foreseen.created)
      (policy.freshName actual.created) policy.cluster now policy.grace) with
    ⟨overflow, _, failed, failed', rfl⟩ | ⟨spec, spec', requested, requested', named⟩
  · have stopped : descriptor.move policy.rehearsal (policy.rehearsal.freshName foreseen.created)
        now .create = .error overflow := Descriptor.move_create_error failed
    rw [stopped, Descriptor.move_create_error failed']
    exact .error rfl
  · have moved : descriptor.move policy.rehearsal (policy.rehearsal.freshName foreseen.created)
        now .create = .ok (.request (.create spec)) := Descriptor.move_create requested
    rw [moved, Descriptor.move_create requested']
    exact .ok (foretold_create live foretold named _ _ _)

theorem reconcile_old_foretold (live : policy.dryRun = false) {descriptor : Descriptor}
    {own : ObservedStack} (old : descriptor.existing = some own) {pending : List ObservedStack}
    {vacancies : Nat}
    (foretold : Foretold policy.freshName limit (own :: pending) vacancies foreseen actual) :
    Alongside Eq (Foretold policy.freshName limit pending vacancies)
      (reconcile policy.rehearsal now foreseen descriptor) (reconcile policy now actual descriptor) := by
  cases planned : descriptor.plan now policy.grace with
  | error overflow =>
      have rehearsed : descriptor.plan now policy.rehearsal.grace = .error overflow := planned
      rw [reconcile, reconcile, rehearsed, planned]
      exact .error rfl
  | ok action =>
      have rehearsed : descriptor.plan now policy.rehearsal.grace = .ok action := planned
      rw [reconcile_of_plan rehearsed, reconcile_of_plan planned]
      have same (fresh fresh' : StackName) : descriptor.move policy.rehearsal fresh now action
          = descriptor.move policy fresh' now action := by
        cases action with
        | create => exact absurd planned (Descriptor.plan_ne_create old now policy.grace)
        | update drift => rfl
        | failed => rfl
        | wait => rfl
        | inSync => rfl
      rw [same _ (policy.freshName actual.created)]
      cases moved : descriptor.move policy (policy.freshName actual.created) now action with
      | error overflow => exact .error rfl
      | ok move =>
          refine .ok ?_
          cases move with
          | nothing => exact foretold_nothing (foretold_tail foretold) _ _
          | refuse failure => exact foretold_refuse (foretold_tail foretold) _ _ failure
          | request request =>
              cases Descriptor.asks_of_move planned moved with
              | create created => exact absurd created (Descriptor.plan_ne_create old now policy.grace)
              | update updated existing requested =>
                  obtain rfl := Option.some.inj (existing.symm.trans old)
                  have called := Descriptor.spec_name requested
                  have standing := foretold.standing _ (.head _)
                  rw [← called] at standing
                  exact foretold_existing live foretold (.update _) called (by simp)
                    ⟨_, standing, Descriptor.plan_update old updated⟩ _ _

theorem cleanUp_foretold (live : policy.dryRun = false) (now : Instant) {orphan : ObservedStack}
    {pending : List ObservedStack} {vacancies : Nat}
    (foretold : Foretold policy.freshName limit (orphan :: pending) vacancies foreseen actual) :
    Alongside Eq (Foretold policy.freshName limit pending vacancies)
      (cleanUp policy.rehearsal now foreseen orphan) (cleanUp policy now actual orphan) := by
  refine alongside_bind (alongside_refl (orphan.planOrphan now policy.grace)) ?_
  rintro action _ rfl
  refine .ok ?_
  have standing := foretold.standing orphan (.head _)
  cases action with
  | keep => exact foretold_nothing (foretold_tail foretold) _ _
  | schedule moment =>
      exact foretold_existing live foretold (.scheduleDeletion orphan.name moment) rfl (by simp)
        ⟨_, standing⟩ _ _
  | delete =>
      exact foretold_existing live foretold (.delete orphan.name) rfl (by simp) ⟨_, standing⟩ _ _

/-- What is still to be handled while load balancers are reconciled: their stacks and then the
orphans. -/
def Remains (policy : StackPolicy) (limit : Nat) (orphans : List ObservedStack)
    (descriptors : List Descriptor) : StackWork → StackWork → Prop :=
  Foretold policy.freshName limit (descriptors.filterMap Descriptor.existing ++ orphans)
    (Descriptor.vacancies descriptors)

theorem reconcile_foretold (live : policy.dryRun = false) (now : Instant)
    {orphans : List ObservedStack} (descriptor : Descriptor) (rest : List Descriptor)
    (remains : Remains policy limit orphans (descriptor :: rest) foreseen actual) :
    Alongside Eq (Remains policy limit orphans rest)
      (reconcile policy.rehearsal now foreseen descriptor) (reconcile policy now actual descriptor) := by
  rw [Remains, Descriptor.vacancies, List.countP_cons] at remains
  cases existing : descriptor.existing with
  | none =>
      rw [List.filterMap_cons_none existing, existing] at remains
      exact reconcile_new_foretold live existing remains
  | some own =>
      rw [List.filterMap_cons_some existing, existing] at remains
      exact reconcile_old_foretold live existing remains

theorem reconcileAll_foretold (live : policy.dryRun = false) (now : Instant)
    {descriptors : List Descriptor} {orphans : List ObservedStack}
    (remains : Remains policy limit orphans descriptors work work) :
    Alongside (fun stop stop' => stop.1 = stop'.1) (Remains policy limit orphans [])
      (reconcileAll policy.rehearsal now work descriptors)
      (reconcileAll policy now work descriptors) := by
  have reconciled := each_alongside (Remains policy limit orphans)
    (fun descriptor rest _ _ => reconcile_foretold live now descriptor rest) descriptors
    remains
  exact alongside_imp (fun _ _ stopped => stopped.1) (fun _ _ done => done) reconciled

theorem cleanUpAll_foretold (live : policy.dryRun = false) (now : Instant) {orphans : List ObservedStack}
    {foreseen actual : StackWork} (remains : Remains policy limit orphans [] foreseen actual) :
    Alongside (fun stop stop' => stop.1 = stop'.1) (Foretold policy.freshName limit [] 0)
      (cleanUpAll policy.rehearsal now { foreseen with problems := [] } orphans)
      (cleanUpAll policy now { actual with problems := [] } orphans) := by
  have started : Foretold policy.freshName limit orphans 0 { foreseen with problems := [] }
      { actual with problems := [] } := { remains with problems := rfl }
  have cleaned := each_alongside (fun pending => Foretold policy.freshName limit pending 0)
    (fun orphan rest _ _ => cleanUp_foretold live now) orphans
    started
  exact alongside_imp (fun _ _ stopped => stopped.1) (fun _ _ done => done) cleaned

end Steps

end StackWork

namespace StatusWork

variable {foreseen actual : StatusWork} {Declared : EndpointId → Prop}

theorem write_dry (address : String) (work : StatusWork) (endpoint : Endpoint) :
    (write true address work endpoint).orchestrator = work.orchestrator := by
  rw [write]
  split <;> rfl

theorem reportAll_dry (debugs : Bool) (minAge : Span) (now : Instant) (work : StatusWork)
    (descriptors : List Descriptor) :
    (reached (reportAll debugs true minAge now work descriptors)).orchestrator
      = work.orchestrator := by
  apply each_induction (motive := fun current : StatusWork =>
    current.orchestrator = work.orchestrator) _ work rfl
  intro current after descriptor _ same done
  rcases writeAll_cases done with rfl | ⟨_, address, _, _, _, rfl⟩ | rfl
  · exact same
  · refine List.foldlRecOn (motive := fun later : StatusWork =>
      later.orchestrator = work.orchestrator) _ _ same ?_
    exact fun later kept endpoint _ => (write_dry address later endpoint).trans kept
  · exact same

/-- The addresses that are foreseen count as the actual ones, those that are reported already
included, and all declared endpoints can be written to. -/
structure Foretold (Declared : EndpointId → Prop) (foreseen actual : StatusWork) : Prop where
  problems : actual.problems = foreseen.problems
  updated : foreseen.changes.updated = actual.changes.updated + actual.changes.unchanged
  withheld : actual.changes.withheld = foreseen.changes.withheld
  skipped : actual.changes.skipped = foreseen.changes.skipped
  writable : ∀ id, Declared id → actual.orchestrator.Writable id

theorem write_foretold (address : String) {endpoint : Endpoint} (declared : Declared endpoint.id)
    (foretold : Foretold Declared foreseen actual) :
    Foretold Declared (write true address foreseen endpoint) (write false address actual endpoint) := by
  have writable (id : EndpointId) (known : Declared id) :
      (write false address actual endpoint).orchestrator.Writable id :=
    Orchestrator.writable_of_reported (write_reported ..) (foretold.writable id known)
  cases skips : endpoint.skipDnsRewrite with
  | true =>
      rw [write, write, skips]
      exact { foretold with skipped := congrArg (· + 1) foretold.skipped }
  | false =>
      rcases Orchestrator.updateStatus_of_writable (foretold.writable _ declared) address with
        ⟨after, updated⟩ | ⟨unneeded, _⟩
      · have written : write false address actual endpoint
            = { actual with orchestrator := after }.countUpdated := by
          simp only [write, skips, updated, Bool.false_eq_true, ↓reduceIte]
        rw [written] at writable ⊢
        rw [write, skips]
        refine { foretold with updated := ?_, writable := writable }
        have updated := foretold.updated
        simp only [Bool.false_eq_true, ↓reduceIte, countUpdated]
        omega
      · have written : write false address actual endpoint = actual.countUnchanged := by
          simp only [write, skips, unneeded, Bool.false_eq_true, ↓reduceIte]
        rw [written] at writable ⊢
        rw [write, skips]
        refine { foretold with updated := ?_, writable := writable }
        have updated := foretold.updated
        simp only [Bool.false_eq_true, ↓reduceIte, countUpdated, countUnchanged]
        omega

theorem writeAll_foretold (debugs : Bool) (minAge : Span) (now : Instant) {descriptor : Descriptor}
    (declared : ∀ endpoint ∈ descriptor.endpoints, Declared endpoint.id)
    (foretold : Foretold Declared foreseen actual) :
    Alongside Eq (Foretold Declared) (writeAll debugs true minAge now foreseen descriptor)
      (writeAll debugs false minAge now actual descriptor) := by
  have withheld : Foretold Declared (foreseen.countWithheld descriptor.endpoints.length)
      (actual.countWithheld descriptor.endpoints.length) :=
    { foretold with withheld := congrArg (· + _) foretold.withheld }
  rw [writeAll, writeAll]
  split
  · exact .ok foretold
  · rename_i existing _
    split
    · exact .ok foretold
    · split
      · exact .ok <| List.foldl_rel foretold fun endpoint member _ _ foretold =>
          write_foretold _ (declared endpoint member) foretold
      · simp only
        split
        · cases existing.stack.remaining now minAge with
          | error overflow => exact .error rfl
          | ok span => exact .ok withheld
        · exact .ok withheld

theorem reportAll_foretold (debugs : Bool) (minAge : Span) (now : Instant)
    {descriptors : List Descriptor}
    (declared : ∀ descriptor ∈ descriptors, ∀ endpoint ∈ descriptor.endpoints,
      Declared endpoint.id) (foretold : Foretold Declared foreseen actual) :
    Alongside (fun stop stop' => stop.1 = stop'.1) (Foretold Declared)
      (reportAll debugs true minAge now foreseen descriptors)
      (reportAll debugs false minAge now actual descriptors) := by
  -- What is still to be reported on serves declared endpoints only.
  let Ready (rest : List Descriptor) (foreseen actual : StatusWork) : Prop :=
    (∀ descriptor ∈ rest, ∀ endpoint ∈ descriptor.endpoints, Declared endpoint.id) ∧
      Foretold Declared foreseen actual
  have stepwise (descriptor : Descriptor) (rest : List Descriptor) (foreseen actual : StatusWork)
      (ready : Ready (descriptor :: rest) foreseen actual) :
      Alongside Eq (Ready rest) (writeAll debugs true minAge now foreseen descriptor)
        (writeAll debugs false minAge now actual descriptor) :=
    alongside_imp (fun _ _ same => same)
      (fun _ _ foretold => ⟨fun other member => ready.1 other (.tail _ member), foretold⟩)
      (writeAll_foretold debugs minAge now (ready.1 descriptor (.head _)) ready.2)
  have related : Alongside _ (Ready []) _ _ :=
    each_alongside Ready stepwise descriptors ⟨declared, foretold⟩
  exact alongside_imp (fun _ _ stopped => stopped.1) (fun _ _ ready => ready.2) related

end StatusWork

namespace TargetWork

variable {dryRun : Bool} {work foreseen actual : TargetWork}

theorem register_dry {after : TargetWork} {group : String} {missing : List InstanceId}
    (done : work.register true group missing = .ok after) : after.cloud = work.cloud := by
  rw [register] at done
  split at done <;> cases done <;> rfl

theorem deregister_dry {after : TargetWork} {group : String} {stale : List InstanceId}
    (done : work.deregister true group stale = .ok after) : after.cloud = work.cloud := by
  rw [deregister] at done
  split at done <;> cases done <;> rfl

theorem sync_dry (cluster : String) (work : TargetWork) (listed : List Stack) :
    (sync cluster true work listed).cloud = work.cloud := by
  refine sync_induction (motive := fun current => current.cloud = work.cloud) (fun _ _ => rfl) ?_ rfl
  intro instances _ current group _ same
  refine syncGroup_induction (motive := fun current => current.cloud = work.cloud)
    (fun _ _ _ kept => kept) ?_ ?_ same
  · exact fun _ _ _ _ done kept => (register_dry done).trans kept
  · exact fun _ _ _ _ done kept => (deregister_dry done).trans kept

theorem register_ok (ready : dryRun = false → work.cloud.Willing) (group : String)
    (missing : List InstanceId) : ∃ after, work.register dryRun group missing = .ok after := by
  rw [register]
  split
  · exact ⟨_, rfl⟩
  · cases dryRun with
    | true => exact ⟨_, rfl⟩
    | false =>
        rw [Cloud.registerTargets, Cloud.permit_of_willing (ready rfl) (by decide)]
        exact ⟨_, rfl⟩

theorem deregister_ok (ready : dryRun = false → work.cloud.Willing) (group : String)
    (stale : List InstanceId) : ∃ after, work.deregister dryRun group stale = .ok after := by
  rw [deregister]
  split
  · exact ⟨_, rfl⟩
  · cases dryRun with
    | true => exact ⟨_, rfl⟩
    | false =>
        rw [Cloud.deregisterTargets, Cloud.permit_of_willing (ready rfl) (by decide)]
        exact ⟨_, rfl⟩

theorem syncGroup_denied {failure : Failure}
    (denied : work.cloud.permit "list_registered_targets" = .error failure)
    (instances : KeySet InstanceId) (group : String) :
    syncGroup dryRun instances work group
      = work.addProblem ("target group " ++ group) failure := by
  rw [syncGroup, Cloud.listTargets, denied]
  rfl

/-- With the registered targets at hand nothing can go wrong in a dry run, or where the cloud is
willing. -/
theorem syncGroup_permitted (ready : dryRun = false → work.cloud.Willing)
    (permitted : work.cloud.permit "list_registered_targets" = .ok ())
    (instances : KeySet InstanceId) (group : String) :
    (syncGroup dryRun instances work group).problems = work.problems := by
  have listed : work.cloud.listTargets group = .ok (work.cloud.registered group).keys := by
    rw [Cloud.listTargets, permitted]
    rfl
  obtain ⟨middle, registered⟩ := register_ok ready group
    (KeySet.without instances (KeySet.ofList (work.cloud.registered group).keys))
  have still : dryRun = false → middle.cloud.Willing := by
    intro live
    obtain ⟨_, same⟩ := register_onlyTargets registered
    exact Cloud.willing_of_failing (ready live) (by rw [same])
  obtain ⟨after, deregistered⟩ := deregister_ok still group
    (KeySet.without (KeySet.ofList (work.cloud.registered group).keys) instances)
  rw [syncGroup, listed]
  simp only [registered, deregistered]
  exact (deregister_cases deregistered).1.trans (register_cases registered).1

theorem syncGroup_failing (instances : KeySet InstanceId) (work : TargetWork) (group : String) :
    (syncGroup dryRun instances work group).cloud.failing = work.cloud.failing := by
  have same : OnlyTargets work.cloud (syncGroup dryRun instances work group).cloud :=
    syncGroup_onlyTargets ..
  obtain ⟨_, same⟩ := same
  rw [same]

structure Foretold (foreseen actual : TargetWork) : Prop where
  problems : actual.problems = foreseen.problems
  failing : actual.cloud.failing = foreseen.cloud.failing
  willing : actual.cloud.Willing

theorem permit_of_foretold (foretold : Foretold foreseen actual) (operation : String) :
    actual.cloud.permit operation = foreseen.cloud.permit operation := by
  rw [Cloud.permit, Cloud.permit, foretold.failing]

theorem foretold_addProblem (foretold : Foretold foreseen actual) (scope : String)
    (failure : Failure) :
    Foretold (foreseen.addProblem scope failure) (actual.addProblem scope failure) :=
  { foretold with problems := congrArg (· ++ [(⟨scope, failure⟩ : Problem)]) foretold.problems }

theorem syncGroup_foretold (instances instances' : KeySet InstanceId) (group : String)
    (foretold : Foretold foreseen actual) :
    Foretold (syncGroup true instances foreseen group) (syncGroup false instances' actual group) := by
  cases permitted : foreseen.cloud.permit "list_registered_targets" with
  | error failure =>
      rw [syncGroup_denied permitted,
        syncGroup_denied ((permit_of_foretold foretold _).trans permitted)]
      exact foretold_addProblem foretold _ failure
  | ok _ =>
      have first : (syncGroup true instances foreseen group).problems = foreseen.problems :=
        syncGroup_permitted (by nofun) permitted instances group
      have second : (syncGroup false instances' actual group).problems = actual.problems :=
        syncGroup_permitted (fun _ => foretold.willing)
          ((permit_of_foretold foretold _).trans permitted) instances' group
      refine ⟨?_, ?_, ?_⟩
      · rw [first, second, foretold.problems]
      · rw [syncGroup_failing, syncGroup_failing, foretold.failing]
      · exact Cloud.willing_of_failing foretold.willing (syncGroup_failing ..)

theorem sync_foretold (cluster : String) (listed : List Stack) (foretold : Foretold foreseen actual) :
    Foretold (sync cluster true foreseen listed) (sync cluster false actual listed) := by
  rw [sync, sync]
  split
  · exact foretold
  · rw [Cloud.listInstances, Cloud.listInstances, permit_of_foretold foretold]
    cases foreseen.cloud.permit "list_cluster_instances" with
    | error failure => exact foretold_addProblem foretold _ failure
    | ok _ =>
        exact List.foldl_rel foretold fun group _ _ _ foretold =>
          syncGroup_foretold _ _ group foretold

end TargetWork

end IngressControl
