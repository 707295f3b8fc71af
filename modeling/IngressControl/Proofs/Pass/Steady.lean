import IngressControl.Proofs.Pass.Continuity
import IngressControl.Proofs.Pass.Renewal
import IngressControl.Proofs.Placement.Homing
/-!
Passes behind the first one.

Such a pass starts no load balancer, since every endpoint is welcome on a stack that the one before
has left. When it restores the load balancers of the one before it has nothing to mend on them. The
orphans are kept then, or it does not come to them: what has made the one before falter is still
there.
-/

namespace IngressControl

theorem Endpoint.recordable_unreported {endpoint : Endpoint} :
    endpoint.unreported.Recordable ↔ endpoint.Recordable :=
  ⟨fun recordable => ⟨recordable.webAcl, recordable.writable⟩,
    fun recordable => ⟨recordable.webAcl, recordable.writable⟩⟩

theorem Descriptor.plan_inSync {descriptor : Descriptor} {existing : ObservedStack} {now : Instant}
    {grace : Span} (old : descriptor.existing = some existing)
    (complete : existing.stack.status.isComplete = true)
    (quiet : descriptor.drift now grace = .ok []) : descriptor.plan now grace = .ok .inSync := by
  obtain ⟨unfailed, idle, undeleted⟩ := StackStatus.isComplete_iff.mp complete
  rw [plan, old]
  simp only [unfailed, idle, undeleted, quiet, Bool.or_self, Bool.false_eq_true, ↓reduceIte]
  rfl

def Circumstances.dated (circumstances : Circumstances) (createdAt : Instant) : Circumstances :=
  { circumstances with createdAt }

namespace Placement

variable {policy : PlacementPolicy} {alarms : Option AlarmSet} {now : Instant}

theorem ofStacks_alarms {listed : List Stack} {endpoints : List ResolvedEndpoint} :
    ∀ descriptor ∈ (ofStacks policy listed endpoints alarms now).descriptors,
      descriptor.alarms = alarms := by
  apply descriptor_induction
  · intro descriptor seed
    obtain ⟨observed, _, rfl⟩ := mem_seeded.mp seed
    rfl
  · intro descriptor resolved _ known _ _
    exact known
  · intro resolved _ _
    rw [Descriptor.add, fresh]
    cases resolved.endpoint.shared <;> rfl

theorem hasEndpoints_congr {first second : Descriptor}
    (used : ∀ id, first.certificates.contains id = second.certificates.contains id) :
    first.hasEndpoints = second.hasEndpoints := by
  rw [Bool.eq_iff_iff, Descriptor.hasEndpoints_iff, Descriptor.hasEndpoints_iff]
  simp only [used]

end Placement

namespace Controller

variable {controller : Controller} {circumstances : Circumstances} {world : World} {later : Instant}
  {demand next : Demand}

/-- A world as a pass leaves it: every endpoint that fits anywhere is welcome on a stack. -/
structure Steady (controller : Controller) (circumstances : Circumstances) (later : Instant)
    (world : World) (demand : Demand) : Prop
    extends Ready controller circumstances later world demand where
  hosted : Placement.Hosted controller.placementPolicy circumstances.now demand.resolved
    (controller.seeds world demand.alarms).descriptors

theorem ready_dated (ready : controller.Ready circumstances later world demand)
    (createdAt : Instant) : controller.Ready (circumstances.dated createdAt) later world demand :=
  ⟨ready.live, ready.horizon, ready.calm, ready.spares, ready.demanded, ready.recordable⟩

theorem steady_dated (steady : controller.Steady circumstances later world demand)
    (createdAt : Instant) : controller.Steady (circumstances.dated createdAt) later world demand :=
  ⟨ready_dated steady.toReady createdAt, steady.hosted⟩

theorem falters_dated {placement : Placement} (falters : controller.Falters circumstances placement)
    (createdAt : Instant) : controller.Falters (circumstances.dated createdAt) placement := falters

theorem placing_grown {now : Instant} (hosted : Placement.Hosted controller.placementPolicy now
      demand.resolved (controller.seeds world demand.alarms).descriptors) :
    (controller.placing now world demand).descriptors.map Descriptor.existing
      = (controller.seeds world demand.alarms).descriptors.map Descriptor.existing :=
  Placement.existing_placeAll fun resolved member =>
    hosted resolved (Placement.mem_byIdentity.mp member)

theorem exists_steady (ready : controller.Ready circumstances later world demand) :
    ∃ next, next.unreported = demand.unreported ∧ controller.Steady circumstances later
      (controller.pass circumstances world).world next := by
  have asked := controller.demand?_pass circumstances circumstances world rfl
  rw [ready.demanded] at asked
  obtain ⟨next, demanded, same⟩ := Option.map_eq_some_iff.mp asked
  have resolved : next.resolved.map ResolvedEndpoint.unreported
      = demand.resolved.map ResolvedEndpoint.unreported := congrArg Demand.resolved same
  have recordable : ∀ other ∈ next.resolved, other.endpoint.Recordable := by
    intro other member
    obtain ⟨source, listed, alike⟩ := Placement.exists_counterpart resolved member
    have kept : other.unreported.endpoint.Recordable :=
      alike ▸ Endpoint.recordable_unreported.mpr (ready.recordable source listed)
    exact Endpoint.recordable_unreported.mp kept
  have hosted := pass_hosted ready next.alarms resolved
  have spares : (controller.pass circumstances world).world.cloud.Spares controller.freshName
      (controller.pass circumstances world).world.created
      ((controller.pass circumstances world).world.created + Descriptor.vacancies
        (controller.placing circumstances.now (controller.pass circumstances world).world
          next).descriptors) := by
    rw [vacancies_of_grown (placing_grown hosted)]
    exact ⟨fun _ _ _ _ _ _ => by omega, fun _ _ _ => by omega⟩
  exact ⟨next, same,
    ⟨ready.live, ready.horizon, pass_calm ready, spares, demanded, recordable⟩, hosted⟩

theorem steady_grown (steady : controller.Steady circumstances later world demand) :
    (controller.placing circumstances.now world demand).descriptors.map Descriptor.existing
      = (controller.seeds world demand.alarms).descriptors.map Descriptor.existing :=
  placing_grown steady.hosted

theorem steady_creates_none (steady : controller.Steady circumstances later world demand)
    (spec : StackSpec) : .create spec ∉ (controller.pass circumstances world).requests := by
  intro member
  have asked := controller.pass_requested circumstances world _ member
  rw [pass_placement steady.toReady] at asked
  rcases asked with ⟨descriptor, wanted, asks⟩ | ⟨orphan, _, asks⟩
  · obtain ⟨old, existing⟩ := existing_of_grown (steady_grown steady) (List.mem_filter.mp wanted).1
    cases asks with
    | create planned _ => exact Descriptor.plan_ne_create existing _ _ planned
  · cases asks

/-- The second load balancer starts from the stack on which the first one is renewed, and has the
same certificates in use. -/
def Restored (controller : Controller) (circumstances : Circumstances) (later : Instant)
    (world : World) (demand : Demand) (former again : Descriptor) : Prop :=
  ∃ seed, controller.Renews circumstances later world demand former seed ∧
    again.existing = seed.existing ∧
    ∀ id, again.certificates.contains id = former.certificates.contains id

/-- The next pass has no load balancers but restored ones, and each wanted one of this pass that has
a stack is restored on it. -/
structure Restores (controller : Controller) (circumstances : Circumstances) (later : Instant)
    (world : World) (demand next : Demand) : Prop where
  source : ∀ again ∈ (controller.placing circumstances.now
      (controller.pass circumstances world).world next).descriptors,
    ∃ former ∈ (controller.placing circumstances.now world demand).descriptors,
      controller.Restored circumstances later world demand former again
  again : ∀ former ∈ (controller.placing circumstances.now world demand).desired,
    ∀ old, former.existing = some old → ∃ again ∈ (controller.placing circumstances.now
        (controller.pass circumstances world).world next).descriptors,
      again.stackName? = some old.name ∧
        controller.Restored circumstances later world demand former again

theorem hasEndpoints_of_restored {former again : Descriptor}
    (restored : controller.Restored circumstances later world demand former again) :
    again.hasEndpoints = former.hasEndpoints := by
  obtain ⟨_, _, _, used⟩ := restored
  exact Placement.hasEndpoints_congr used

section Restored

variable (restores : controller.Restores circumstances later world demand next)

include restores

theorem planOrphan_keep_of_restores
    (finished : ¬ controller.Falters circumstances
      (controller.placing circumstances.now world demand)) {orphan : ObservedStack}
    (orphaned : orphan ∈ (controller.placing circumstances.now
      (controller.pass circumstances world).world next).orphaned) :
    orphan.planOrphan circumstances.now controller.grace = .ok .keep := by
  obtain ⟨again, placed, unfilled, existing⟩ := Placement.mem_orphaned orphaned
  obtain ⟨former, _, restored⟩ := restores.source again placed
  rw [hasEndpoints_of_restored restored] at unfilled
  obtain ⟨seed, renews, rooted, _⟩ := restored
  exact renews.kept unfilled finished orphan (rooted.symm.trans existing)

variable (ready : controller.Ready circumstances later world demand)

include ready

/-- What made a pass falter makes the next one falter: the address is still the same, and so is the
date of its stack. -/
theorem falters_again
    (falters : controller.Falters circumstances
      (controller.placing circumstances.now world demand)) :
    controller.Falters circumstances (controller.placing circumstances.now
      (controller.pass circumstances world).world next) := by
  obtain ⟨shown, former, wanted, old, address, existing, addressed, young, immeasurable⟩ := falters
  obtain ⟨placed, filled⟩ := List.mem_filter.mp wanted
  obtain ⟨again, placed', called, restored⟩ := restores.again former wanted old existing
  have filled' : again.hasEndpoints = true := (hasEndpoints_of_restored restored).trans filled
  obtain ⟨seed, renews, rooted, _⟩ := restored
  obtain ⟨observed, existing', named⟩ := Option.map_eq_some_iff.mp called
  have complete := renews.complete filled observed (rooted.symm.trans existing')
  have before := (placing_origin ready.calm placed existing).found
  have found := (placing_origin (pass_calm ready) placed' existing').found
  rw [named] at found
  rcases pass_stack ready.calm.named found with ⟨absent, _⟩ | ⟨earlier, found', continues, _⟩
  · exact nomatch absent.symm.trans before
  obtain rfl := Option.some.inj (found'.symm.trans before)
  have age : observed.stack.age circumstances.now = old.stack.age circumstances.now := by
    rw [Stack.age, Stack.age, continues.createdAt]
  refine ⟨shown, again, List.mem_filter.mpr ⟨placed', filled'⟩, observed, address, existing', ?_,
    ?_, ?_⟩
  · exact Stack.address?_of_continues continues complete addressed
  · rw [Stack.isRoutable, age]
    exact young
  · rw [age]
    exact immeasurable

variable
  (steady' : controller.Steady circumstances later (controller.pass circumstances world).world next)
  (same : next.unreported = demand.unreported)

include steady' same

theorem plan_inSync_of_restores {again : Descriptor}
    (wanted : again ∈ (controller.placing circumstances.now
      (controller.pass circumstances world).world next).desired) :
    again.plan circumstances.now controller.grace = .ok .inSync := by
  obtain ⟨placed, filled⟩ := List.mem_filter.mp wanted
  obtain ⟨former, placed', restored⟩ := restores.source again placed
  have filled' : former.hasEndpoints = true := (hasEndpoints_of_restored restored).symm.trans filled
  obtain ⟨seed, renews, rooted, used⟩ := restored
  obtain ⟨old, existing⟩ := existing_of_grown (steady_grown steady') placed
  have seeded : seed.existing = some old := rooted.symm.trans existing
  have faithful := placing_faithful ready.calm ready.recordable former placed'
  have alarms : again.alarms = former.alarms := by
    rw [Placement.ofStacks_alarms again placed, Placement.ofStacks_alarms former placed']
    have known : next.unreported.alarms = demand.unreported.alarms := by rw [same]
    exact known
  refine Descriptor.plan_inSync existing (renews.complete filled' old seeded) ?_
  exact Descriptor.drift_eq_nil ready.horizon faithful.storable
    (renews.recorded filled' old seeded) (Placement.ofStacks_rooted again placed old existing)
    alarms used

theorem requests_of_restores (createdAt : Instant) :
    (controller.pass (circumstances.dated createdAt)
      (controller.pass circumstances world).world).requests = [] := by
  refine List.eq_nil_iff_forall_not_mem.mpr fun request member => ?_
  have placement : (controller.pass (circumstances.dated createdAt)
        (controller.pass circumstances world).world).placement
      = controller.placing circumstances.now (controller.pass circumstances world).world next :=
    pass_placement (ready_dated steady'.toReady createdAt)
  have unwanted (demands : (controller.pass (circumstances.dated createdAt)
        (controller.pass circumstances world).world).placement.Demands
      (controller.stackPolicy createdAt) circumstances.now request) : False := by
    rw [placement] at demands
    obtain ⟨again, wanted, asks⟩ := demands
    have settled := plan_inSync_of_restores restores ready steady' same wanted
    cases asks with
    | create planned _ => exact nomatch settled.symm.trans planned
    | update planned _ _ => exact nomatch settled.symm.trans planned
  by_cases falters : controller.Falters circumstances
      (controller.placing circumstances.now world demand)
  · have halted := falters_dated (falters_again restores ready falters) createdAt
    rw [← placement] at halted
    exact unwanted (pass_demands halted request member)
  · rcases controller.pass_requested (circumstances.dated createdAt) _ request member with
      demands | ⟨orphan, orphaned, asks⟩
    · exact unwanted demands
    · rw [placement] at orphaned
      have settled := planOrphan_keep_of_restores restores falters orphaned
      cases asks with
      | schedule planned => exact nomatch settled.symm.trans planned
      | delete planned => exact nomatch settled.symm.trans planned

end Restored

end Controller

end IngressControl
