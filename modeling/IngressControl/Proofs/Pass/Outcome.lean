import IngressControl.Proofs.Pairs
import IngressControl.Proofs.Pass.Effect
import IngressControl.Proofs.Pass.Removal
/-!
What all the work of a pass leaves behind when the cloud grants every request.

No step touches the stack of another one: existing stacks have different names, and each new stack
takes a name that none has. So each load balancer of the placement meets the outcome of its own
step, and every other stack is as it was.
-/

namespace IngressControl

structure Cloud.Spares (cloud : Cloud) (freshName : Nat → StackName) (created limit : Nat) :
    Prop where
  injective : ∀ first second, created ≤ first → first < limit → created ≤ second →
    second < limit → freshName first = freshName second → first = second
  unused : ∀ number, created ≤ number → number < limit →
    cloud.provisioned.get? (freshName number) = none

theorem Cloud.spares_of_kept {cloud after : Cloud} {freshName : Nat → StackName}
    {created grown limit : Nat} (spares : cloud.Spares freshName created limit)
    (ahead : created ≤ grown)
    (kept : ∀ number, grown ≤ number → number < limit →
      after.provisioned.get? (freshName number) = cloud.provisioned.get? (freshName number)) :
    after.Spares freshName grown limit where
  injective first second low within low' within' :=
    spares.injective first second (Nat.le_trans ahead low) within (Nat.le_trans ahead low') within'
  unused number low within :=
    (kept number low within).trans (spares.unused number (Nat.le_trans ahead low) within)

def Descriptor.vacancies (descriptors : List Descriptor) : Nat :=
  descriptors.countP fun descriptor => descriptor.existing.isNone

namespace StackWork

variable {policy : StackPolicy} {now later : Instant} {limit : Nat}

/-- The stack of this name carries the load balancer, which had it before or is the first to. -/
structure Houses (policy : StackPolicy) (now later : Instant) (before after : Cloud)
    (descriptor : Descriptor) (name : StackName) : Prop where
  carries : after.Carries policy.cluster now later descriptor name
  old : ∀ observed, descriptor.existing = some observed → observed.name = name
  new : descriptor.existing = none → before.provisioned.get? name = none

structure ReconciledAll (policy : StackPolicy) (now later : Instant) (work : StackWork)
    (descriptors : List Descriptor) (names : List StackName) (after : StackWork) : Prop where
  able : after.cloud.Able
  housed : List.Forall₂ (Houses policy now later work.cloud after.cloud) descriptors names
  apart : names.Nodup
  elsewhere : ∀ name ∉ names,
    after.cloud.provisioned.get? name = work.cloud.provisioned.get? name

/-- A step takes at most the next fresh name, so that those behind it stay free. -/
theorem spares_of_reconciled {work after : StackWork} {descriptor : Descriptor}
    (spares : work.cloud.Spares policy.freshName work.created limit)
    (shows : work.cloud.Shows descriptor)
    (reconciled : Reconciled policy now later work descriptor after) :
    after.cloud.Spares policy.freshName after.created limit := by
  have created := reconciled.created
  have apart (number : Nat) (ahead : after.created ≤ number) (behind : work.created ≤ number)
      (within : number < limit) :
      policy.freshName number ≠ descriptor.site (policy.freshName work.created) := by
    intro same
    cases existing : descriptor.existing with
    | none =>
        have site := Descriptor.site_of_none existing (policy.freshName work.created)
        rw [existing] at created
        simp only [Option.isSome_none, Bool.false_eq_true, ↓reduceIte] at created
        have equal := spares.injective _ _ behind within (Nat.le_refl _) (by omega)
          (same.trans site)
        omega
    | some observed =>
        have site := Descriptor.site_of_some existing (policy.freshName work.created)
        have found := shows observed existing
        rw [← site, ← same, spares.unused number behind within] at found
        cases found
  have later_name : work.created ≤ after.created := by
    rw [created]
    split <;> omega
  exact Cloud.spares_of_kept spares later_name fun number ahead within =>
    reconciled.elsewhere _ (apart number ahead (Nat.le_trans later_name ahead) within)

theorem site_ne {work : StackWork} {descriptor other : Descriptor} {observed : ObservedStack}
    (spares : work.cloud.Spares policy.freshName work.created limit)
    (enough : descriptor.existing = none → work.created < limit)
    (apart : Placement.Unrelated descriptor other) (shows : work.cloud.Shows other)
    (existing : other.existing = some observed) :
    observed.name ≠ descriptor.site (policy.freshName work.created) := by
  intro same
  cases own : descriptor.existing with
  | none =>
      have found := shows observed existing
      rw [same, Descriptor.site_of_none own, spares.unused _ (Nat.le_refl _) (enough own)] at found
      cases found
  | some mine =>
      refine apart mine.name (by rw [Descriptor.stackName?, own]; rfl) ?_
      rw [Descriptor.stackName?, existing, Option.map_some, same, Descriptor.site_of_some own]

theorem reconcile_reconciled {work : StackWork} {descriptor : Descriptor}
    (live : policy.dryRun = false) (horizon : Horizon now later policy.grace)
    (able : work.cloud.Able) (spares : work.cloud.Spares policy.freshName work.created limit)
    (enough : descriptor.existing = none → work.created < limit)
    (faithful : descriptor.Faithful policy.cluster) (complete : descriptor.Complete)
    (shows : work.cloud.Shows descriptor) :
    ∃ after, reconcile policy now work descriptor = .ok after ∧
      Reconciled policy now later work descriptor after := by
  cases existing : descriptor.existing with
  | none =>
      exact reconcile_started live horizon able faithful existing
        (spares.unused _ (Nat.le_refl _) (enough existing))
  | some observed =>
      exact reconcile_existing live horizon able faithful existing (complete observed existing)
        (shows observed existing)

theorem created_lt_limit {work : StackWork} {descriptor : Descriptor} {rest : List Descriptor}
    (enough : work.created + Descriptor.vacancies (descriptor :: rest) ≤ limit)
    (new : descriptor.existing = none) : work.created < limit := by
  rw [Descriptor.vacancies, List.countP_cons] at enough
  simp only [new, Option.isNone_none, ↓reduceIte] at enough
  omega

theorem vacancies_after {work after : StackWork} {descriptor : Descriptor} {rest : List Descriptor}
    (reconciled : Reconciled policy now later work descriptor after)
    (enough : work.created + Descriptor.vacancies (descriptor :: rest) ≤ limit) :
    after.created + Descriptor.vacancies rest ≤ limit := by
  rw [Descriptor.vacancies, List.countP_cons] at enough
  rw [reconciled.created, Descriptor.vacancies]
  cases existing : descriptor.existing with
  | none =>
      simp only [existing, Option.isNone_none, ↓reduceIte] at enough
      simp only [Option.isSome_none, Bool.false_eq_true, ↓reduceIte]
      omega
  | some observed =>
      simp only [existing, Option.isNone_some, Bool.false_eq_true, ↓reduceIte] at enough
      simpa using enough

/-- A step leaves the stacks of the others alone, and they leave its stack alone. -/
theorem reconciledAll_cons {work middle after : StackWork} {descriptor : Descriptor}
    {rest : List Descriptor} {names : List StackName}
    (reconciled : Reconciled policy now later work descriptor middle)
    (vacant : descriptor.existing = none →
      work.cloud.provisioned.get? (policy.freshName work.created) = none)
    (untouched : ∀ other ∈ rest, ∀ observed, other.existing = some observed →
      observed.name ≠ descriptor.site (policy.freshName work.created))
    (behind : ReconciledAll policy now later middle rest names after) :
    ReconciledAll policy now later work (descriptor :: rest)
      (descriptor.site (policy.freshName work.created) :: names) after := by
  have foreign (other : Descriptor) (member : other ∈ rest) (name : StackName)
      (houses : Houses policy now later middle.cloud after.cloud other name) :
      name ≠ descriptor.site (policy.freshName work.created) := by
    rintro rfl
    cases existing : other.existing with
    | none =>
        obtain ⟨_, presents, _⟩ := reconciled.carried
        exact nomatch (houses.new existing).symm.trans presents.found
    | some observed => exact untouched other member observed existing (houses.old observed existing)
  have outside : descriptor.site (policy.freshName work.created) ∉ names := by
    intro member
    obtain ⟨other, member', houses⟩ := Pairs.exists_left behind.housed member
    exact foreign other member' _ houses rfl
  refine ⟨behind.able, .cons ⟨?_, ?_, ?_⟩ ?_, List.nodup_cons.mpr ⟨outside, behind.apart⟩, ?_⟩
  · exact Cloud.carries_of_same reconciled.carried (behind.elsewhere _ outside)
  · intro observed existing
    exact (Descriptor.site_of_some existing _).symm
  · intro new
    rw [Descriptor.site_of_none new]
    exact vacant new
  · refine Pairs.imp_mem (fun other member name _ houses => ?_) behind.housed
    refine ⟨houses.carries, houses.old, fun new => ?_⟩
    rw [← reconciled.elsewhere name (foreign other member name houses)]
    exact houses.new new
  · intro name absent
    rw [behind.elsewhere name fun member => absent (.tail _ member),
      reconciled.elsewhere name fun same => absent (same ▸ .head _)]

theorem reconcileAll_reconciled (live : policy.dryRun = false)
    (horizon : Horizon now later policy.grace) {descriptors : List Descriptor}
    (faithful : ∀ descriptor ∈ descriptors, descriptor.Faithful policy.cluster)
    (complete : ∀ descriptor ∈ descriptors, descriptor.Complete)
    (apart : descriptors.Pairwise Placement.Unrelated) (work : StackWork)
    (able : work.cloud.Able) (spares : work.cloud.Spares policy.freshName work.created limit)
    (enough : work.created + Descriptor.vacancies descriptors ≤ limit)
    (shows : ∀ descriptor ∈ descriptors, work.cloud.Shows descriptor) :
    ∃ after names, reconcileAll policy now work descriptors = .ok after ∧
      ReconciledAll policy now later work descriptors names after := by
  induction descriptors generalizing work with
  | nil => exact ⟨work, [], rfl, able, .nil, .nil, fun _ _ => rfl⟩
  | cons descriptor rest ih =>
      obtain ⟨above, apart⟩ := List.pairwise_cons.mp apart
      have here := shows descriptor (.head _)
      have first := created_lt_limit enough
      obtain ⟨middle, step, reconciled⟩ := reconcile_reconciled live horizon able spares first
        (faithful descriptor (.head _)) (complete descriptor (.head _)) here
      have untouched (other : Descriptor) (member : other ∈ rest) (observed : ObservedStack)
          (existing : other.existing = some observed) :
          observed.name ≠ descriptor.site (policy.freshName work.created) :=
        site_ne spares first (above other member) (shows other (.tail _ member)) existing
      obtain ⟨after, names, steps, behind⟩ := ih
        (fun other member => faithful other (.tail _ member))
        (fun other member => complete other (.tail _ member)) apart middle reconciled.able
        (spares_of_reconciled spares here reconciled) (vacancies_after reconciled enough)
        fun other member observed existing => by
          rw [reconciled.elsewhere _ (untouched other member observed existing)]
          exact shows other (.tail _ member) observed existing
      refine ⟨after, _, by rw [reconcileAll, each, step]; exact steps,
        reconciledAll_cons reconciled ?_ untouched behind⟩
      exact fun new => spares.unused _ (Nat.le_refl _) (first new)

structure CleanedAll (policy : StackPolicy) (now : Instant) (work : StackWork)
    (orphans : List ObservedStack) (after : StackWork) : Prop where
  able : after.cloud.Able
  left : ∀ orphan ∈ orphans, Leaves policy.cluster now policy.grace after.cloud orphan
  elsewhere : ∀ name, (∀ orphan ∈ orphans, orphan.name ≠ name) →
    after.cloud.provisioned.get? name = work.cloud.provisioned.get? name

theorem leaves_of_same {cluster : String} {grace : Span} {before after : Cloud}
    {orphan : ObservedStack} (leaves : Leaves cluster now grace before orphan)
    (same : after.provisioned.get? orphan.name = before.provisioned.get? orphan.name) :
    Leaves cluster now grace after orphan := by
  rcases leaves with ⟨planned, gone⟩ | ⟨lingering, ⟨found, listed, reflects⟩, lingers⟩
  · exact .inl ⟨planned, same.trans gone⟩
  · exact .inr ⟨lingering, ⟨same.trans found, listed, reflects⟩, lingers⟩

theorem cleanUpAll_cleaned (live : policy.dryRun = false)
    (horizon : Horizon now later policy.grace) {orphans : List ObservedStack}
    (reflects : ∀ orphan ∈ orphans, orphan.Reflects orphan.stack)
    (listed : ∀ orphan ∈ orphans, orphan.stack.IsOf policy.cluster)
    (apart : orphans.Pairwise fun first second => first.name ≠ second.name) (work : StackWork)
    (able : work.cloud.Able)
    (shows : ∀ orphan ∈ orphans, work.cloud.provisioned.get? orphan.name = some orphan.stack) :
    ∃ after, cleanUpAll policy now work orphans = .ok after ∧
      CleanedAll policy now work orphans after := by
  induction orphans generalizing work with
  | nil =>
      refine ⟨work, rfl, able, fun orphan member => ?_, fun _ _ => rfl⟩
      cases member
  | cons orphan rest ih =>
      obtain ⟨above, apart⟩ := List.pairwise_cons.mp apart
      obtain ⟨middle, step, cleaned⟩ := cleanUp_cleaned live horizon able
        (reflects orphan (.head _)) (listed orphan (.head _)) (shows orphan (.head _))
      obtain ⟨after, steps, rest_cleaned⟩ := ih
        (fun other member => reflects other (.tail _ member))
        (fun other member => listed other (.tail _ member)) apart middle cleaned.able
        fun other member => by
          rw [cleaned.elsewhere _ (above other member).symm]
          exact shows other (.tail _ member)
      refine ⟨after, by rw [cleanUpAll, each, step]; exact steps, rest_cleaned.able, ?_, ?_⟩
      · intro other member
        rcases List.mem_cons.mp member with rfl | later
        · exact leaves_of_same cleaned.left <| rest_cleaned.elsewhere _ fun next member =>
            (above next member).symm
        · exact rest_cleaned.left other later
      · intro name foreign
        rw [rest_cleaned.elsewhere name fun other member => foreign other (.tail _ member),
          cleaned.elsewhere name (foreign orphan (.head _)).symm]

end StackWork

namespace Controller

variable {controller : Controller} {circumstances : Circumstances} {world : World} {later : Instant}
  {report : Report} {listed : List Stack} {placement : Placement}

/-- What becomes of the stacks: wanted load balancers are carried by those of these names, orphans
are dealt with or, in a pass that is `halted` before, left alone, and no other stack is touched. -/
structure Outcome (halted : Prop) (policy : StackPolicy) (now later : Instant)
    (placement : Placement) (before : Cloud) (names : List StackName) (after : Cloud) : Prop where
  able : after.Able
  housed : List.Forall₂ (StackWork.Houses policy now later before after) placement.desired names
  apart : names.Nodup
  left : ¬ halted → ∀ orphan ∈ placement.orphaned,
    StackWork.Leaves policy.cluster now policy.grace after orphan
  untouched : halted → ∀ orphan ∈ placement.orphaned,
    after.provisioned.get? orphan.name = before.provisioned.get? orphan.name
  elsewhere : ∀ name ∉ names, (∀ orphan ∈ placement.orphaned, orphan.name ≠ name) →
    after.provisioned.get? name = before.provisioned.get? name

theorem desired_apart_orphaned (apart : placement.descriptors.Pairwise Placement.Unrelated)
    {descriptor : Descriptor} {orphan : ObservedStack} (wanted : descriptor ∈ placement.desired)
    (orphaned : orphan ∈ placement.orphaned) : descriptor.stackName? ≠ some orphan.name := by
  obtain ⟨vacant, placed, unfilled, existing⟩ := Placement.mem_orphaned orphaned
  obtain ⟨placed', filled⟩ := List.mem_filter.mp wanted
  have differs : descriptor ≠ vacant := by
    rintro rfl
    rw [unfilled] at filled
    cases filled
  intro same
  refine apart.forall placed' placed differs orphan.name same ?_
  rw [Descriptor.stackName?, existing]
  rfl

theorem orphaned_names (apart : placement.descriptors.Pairwise Placement.Unrelated) :
    placement.orphaned.Pairwise fun first second => first.name ≠ second.name := by
  refine List.pairwise_filterMap.mpr ((apart.filter _).imp ?_)
  intro first second unrelated orphan existing other existing' same
  refine unrelated orphan.name (by rw [Descriptor.stackName?, existing]; rfl) ?_
  rw [Descriptor.stackName?, existing', same]
  rfl

theorem exists_vacant {orphan : ObservedStack} (orphaned : orphan ∈ placement.orphaned) :
    ∃ descriptor ∈ placement.descriptors, descriptor.existing = some orphan := by
  obtain ⟨descriptor, placed, _, existing⟩ := Placement.mem_orphaned orphaned
  exact ⟨descriptor, placed, existing⟩

theorem orphan_foreign {policy : StackPolicy} {now : Instant} {work after : StackWork}
    {names : List StackName} (apart : placement.descriptors.Pairwise Placement.Unrelated)
    (reconciling :
      StackWork.ReconciledAll policy now later work placement.desired names after)
    {orphan : ObservedStack} (orphaned : orphan ∈ placement.orphaned)
    (shown : work.cloud.provisioned.get? orphan.name = some orphan.stack) :
    orphan.name ∉ names := by
  intro member
  obtain ⟨descriptor, member, houses⟩ := Pairs.exists_left reconciling.housed member
  cases existing : descriptor.existing with
  | none => exact nomatch (houses.new existing).symm.trans shown
  | some observed =>
      refine desired_apart_orphaned apart member orphaned ?_
      rw [Descriptor.stackName?, existing, Option.map_some, houses.old observed existing]

theorem outcome_of_stages {halted : Prop} {policy : StackPolicy} {now : Instant}
    {start work final : StackWork} {names : List StackName} {after : Cloud}
    (finished : ¬ halted)
    (reconciling :
      StackWork.ReconciledAll policy now later start placement.desired names work)
    (foreign : ∀ orphan ∈ placement.orphaned, orphan.name ∉ names)
    (cleaning :
      StackWork.CleanedAll policy now { work with problems := [] } placement.orphaned final)
    (ended : TargetWork.OnlyTargets final.cloud after) :
    Outcome halted policy now later placement start.cloud names after := by
  obtain ⟨targets, rfl⟩ := ended
  have spared (name : StackName) (kept : ∀ orphan ∈ placement.orphaned, orphan.name ≠ name) :
      final.cloud.provisioned.get? name = work.cloud.provisioned.get? name :=
    cleaning.elsewhere name kept
  refine ⟨⟨cleaning.able.unfailing, cleaning.able.settling⟩, ?_, reconciling.apart, ?_,
    fun halted => absurd halted finished, ?_⟩
  · refine Pairs.imp_mem (fun descriptor _ name member houses => ?_) reconciling.housed
    have kept : ∀ orphan ∈ placement.orphaned, orphan.name ≠ name := by
      rintro orphan orphaned rfl
      exact foreign orphan orphaned member
    exact ⟨Cloud.carries_of_same houses.carries (spared name kept), houses.old, houses.new⟩
  · exact fun _ orphan orphaned => StackWork.leaves_of_same (cleaning.left orphan orphaned) rfl
  · exact fun name outside kept =>
      (spared name kept).trans (reconciling.elsewhere name outside)

theorem outcome_of_halted {halted : Prop} {policy : StackPolicy} {now : Instant}
    {start work : StackWork} {names : List StackName} (stopped : halted)
    (reconciling :
      StackWork.ReconciledAll policy now later start placement.desired names work)
    (foreign : ∀ orphan ∈ placement.orphaned, orphan.name ∉ names) :
    Outcome halted policy now later placement start.cloud names work.cloud :=
  ⟨reconciling.able, reconciling.housed, reconciling.apart,
    fun finished => absurd stopped finished,
    fun _ orphan orphaned => reconciling.elsewhere _ (foreign orphan orphaned),
    fun name outside _ => reconciling.elsewhere name outside⟩

theorem act_outcome (world : World) (live : controller.settings.dryRun = false)
    (horizon : Horizon circumstances.now later controller.grace) (able : world.cloud.Able)
    (spares : world.cloud.Spares controller.freshName world.created
      (world.created + Descriptor.vacancies placement.descriptors))
    (faithful : ∀ descriptor ∈ placement.descriptors,
      descriptor.Faithful controller.settings.clusterId)
    (complete : ∀ descriptor ∈ placement.desired, descriptor.Complete)
    (apart : placement.descriptors.Pairwise Placement.Unrelated)
    (shows : ∀ descriptor ∈ placement.descriptors, world.cloud.Shows descriptor) :
    ∃ names, Outcome (controller.Falters circumstances placement)
      (controller.stackPolicy circumstances.createdAt) circumstances.now later placement world.cloud
      names (controller.act circumstances world report listed placement).world.cloud := by
  have wanted {descriptor : Descriptor} (member : descriptor ∈ placement.desired) :
      descriptor ∈ placement.descriptors := (List.mem_filter.mp member).1
  have vacated {orphan : ObservedStack} (orphaned : orphan ∈ placement.orphaned) :
      world.cloud.provisioned.get? orphan.name = some orphan.stack ∧
        orphan.Reflects orphan.stack ∧ orphan.stack.IsOf controller.settings.clusterId := by
    obtain ⟨descriptor, placed, existing⟩ := exists_vacant orphaned
    have known := faithful descriptor placed
    exact ⟨shows descriptor placed orphan existing, known.reflects orphan existing,
      known.listed orphan existing⟩
  have horizon' : Horizon circumstances.now later
    (controller.stackPolicy circumstances.createdAt).grace := horizon
  obtain ⟨work, names, reconciled, reconciling⟩ := StackWork.reconcileAll_reconciled live horizon'
    (fun descriptor member => faithful descriptor (wanted member)) complete (apart.filter _)
    { cloud := world.cloud, created := world.created } able spares
    (Nat.add_le_add_left ((List.filter_sublist ..).countP_le ..) _)
    fun descriptor member => shows descriptor (wanted member)
  have foreign : ∀ orphan ∈ placement.orphaned, orphan.name ∉ names := fun orphan orphaned =>
    orphan_foreign apart reconciling orphaned (vacated orphaned).1
  refine ⟨names, ?_⟩
  cases told : controller.statusWork circumstances world placement with
  | error stop =>
      rw [statusWork] at told
      have stopped : controller.Falters circumstances placement := StatusWork.reportAll_error told
      simp only [act, reconciled, told]
      exact outcome_of_halted stopped reconciling foreign
  | ok statuses =>
      have fluent : ¬ controller.Falters circumstances placement := by
        intro falters
        obtain ⟨stop, failed⟩ := statusWork_of_falters falters world
        cases told.symm.trans failed
      -- The work on wanted load balancers has left the orphans as they were listed.
      obtain ⟨final, cleaned, cleaning⟩ := StackWork.cleanUpAll_cleaned live horizon'
        (fun orphan orphaned => (vacated orphaned).2.1)
        (fun orphan orphaned => (vacated orphaned).2.2) (orphaned_names apart)
        { work with problems := [] } reconciling.able fun orphan orphaned =>
          (reconciling.elsewhere _ (foreign orphan orphaned)).trans (vacated orphaned).1
      rw [statusWork] at told
      refine outcome_of_stages fluent reconciling foreign cleaning ?_
      simp only [act, reconciled, told, cleaned]
      exact TargetWork.sync_onlyTargets ..

end Controller

end IngressControl
