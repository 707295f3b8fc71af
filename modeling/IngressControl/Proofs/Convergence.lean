import IngressControl.Proofs.Pass.Delivery
import IngressControl.Proofs.Pass.Settling
import IngressControl.Proofs.Run
/-!
Passes one after the other in the same circumstances.

No pass behind the first starts a load balancer. Each of them takes up room on the stacks until one
finds all endpoints at home, and from then on nothing is asked for any more. The room after the
first pass bounds how long that takes.
-/

namespace IngressControl

namespace Controller

variable {controller : Controller} {circumstances : Circumstances} {dates : Nat → Instant}
  {world : World} {later : Instant} {demand : Demand}

def repeated (controller : Controller) (circumstances : Circumstances) (dates : Nat → Instant)
    (world : World) : Nat → World
  | 0 => world
  | number + 1 =>
      (controller.pass (circumstances.dated (dates number))
        (repeated controller circumstances dates world number)).world

def passAt (controller : Controller) (circumstances : Circumstances) (dates : Nat → Instant)
    (world : World) (number : Nat) : PassResult :=
  controller.pass (circumstances.dated (dates number))
    (controller.repeated circumstances dates world number)

section Unasked

variable (absent : controller.demand? circumstances world.orchestrator = none)

include absent

theorem pass_unasked (createdAt : Instant) :
    (controller.pass (circumstances.dated createdAt) world).requests = [] ∧
      (controller.pass (circumstances.dated createdAt) world).world.cloud = world.cloud ∧
      controller.demand? circumstances
        (controller.pass (circumstances.dated createdAt) world).world.orchestrator = none := by
  have asked := controller.demand?_pass (circumstances.dated createdAt) circumstances world rfl
  rw [absent, Option.map_none, Option.map_eq_none_iff] at asked
  rcases controller.pass_of_demand? (circumstances.dated createdAt) world with
    ⟨_, _, idle, same⟩ | ⟨demand, _, _, present, _⟩
  · exact ⟨idle, same, asked⟩
  · exact nomatch absent.symm.trans present

theorem repeated_unasked (number : Nat) :
    controller.demand? circumstances
        (controller.repeated circumstances dates world number).orchestrator = none ∧
      (controller.repeated circumstances dates world number).cloud = world.cloud := by
  induction number with
  | zero => exact ⟨absent, rfl⟩
  | succ number ih =>
      obtain ⟨_, same, absent⟩ := pass_unasked ih.1 (dates number)
      exact ⟨absent, same.trans ih.2⟩

end Unasked

def SteadyAt (controller : Controller) (circumstances : Circumstances) (dates : Nat → Instant)
    (world : World) (later : Instant) (number : Nat) (demand : Demand) : Prop :=
  controller.Steady circumstances later (controller.repeated circumstances dates world number) demand

theorem exists_steadyAt_one (ready : controller.Ready circumstances later world demand) :
    ∃ next, controller.SteadyAt circumstances dates world later 1 next := by
  obtain ⟨next, _, steady⟩ := exists_steady (ready_dated ready (dates 0))
  exact ⟨next, steady_dated steady circumstances.createdAt⟩

theorem exists_steadyAt_succ {number : Nat}
    (steady : controller.SteadyAt circumstances dates world later number demand) :
    ∃ next, next.unreported = demand.unreported ∧
      controller.SteadyAt circumstances dates world later (number + 1) next := by
  obtain ⟨next, same, steady'⟩ := exists_steady (ready_dated steady.toReady (dates number))
  exact ⟨next, same, steady_dated steady' circumstances.createdAt⟩

theorem exists_steadyAt (ready : controller.Ready circumstances later world demand) {number : Nat}
    (behind : 1 ≤ number) : ∃ next, controller.SteadyAt circumstances dates world later number next := by
  induction number, behind using Nat.le_induction with
  | base => exact exists_steadyAt_one ready
  | succ number _ ih =>
      obtain ⟨former, steady⟩ := ih
      obtain ⟨next, _, steady'⟩ := exists_steadyAt_succ steady
      exact ⟨next, steady'⟩

def Settled (controller : Controller) (circumstances : Circumstances) (dates : Nat → Instant)
    (world : World) (later : Instant) (number : Nat) : Prop :=
  ∃ demand, controller.SteadyAt circumstances dates world later number demand ∧
    controller.Homed circumstances.now (controller.repeated circumstances dates world number) demand

theorem settled_succ {number : Nat}
    (settled : controller.Settled circumstances dates world later number) :
    controller.Settled circumstances dates world later (number + 1) ∧
      (controller.passAt circumstances dates world (number + 1)).requests = [] := by
  obtain ⟨demand, steady, homed⟩ := settled
  obtain ⟨next, same, steady'⟩ := exists_steadyAt_succ steady
  have dated := steady_dated steady (dates number)
  have dated' := steady_dated steady' (dates number)
  have resolved : next.resolved.map ResolvedEndpoint.unreported
      = demand.resolved.map ResolvedEndpoint.unreported := congrArg Demand.resolved same
  have restores := restores_of_homed dated homed resolved
  exact ⟨⟨next, steady', homed_again dated homed resolved⟩,
    requests_of_restores restores dated.toReady dated' same (dates (number + 1))⟩

theorem settled_of_le {first number : Nat}
    (settled : controller.Settled circumstances dates world later first) (behind : first ≤ number) :
    controller.Settled circumstances dates world later number := by
  induction number, behind using Nat.le_induction with
  | base => exact settled
  | succ number _ ih => exact (settled_succ ih).1

/-- As long as endpoints are not at home there is less room on the stacks from pass to pass. -/
theorem exists_settled {bound number : Nat}
    (steady : controller.SteadyAt circumstances dates world later number demand)
    (within : controller.room circumstances.now
      (controller.repeated circumstances dates world number) demand ≤ bound) :
    ∃ more ≤ bound, controller.Settled circumstances dates world later (number + more) := by
  induction bound generalizing number demand with
  | zero =>
      obtain ⟨next, _, _⟩ := exists_steadyAt_succ steady
      rcases homed_or_less_room (steady_dated steady (dates number)) next with homed | less
      · exact ⟨0, Nat.le_refl _, demand, steady, homed⟩
      · exact absurd (Nat.lt_of_lt_of_le less within) (Nat.not_lt_zero _)
  | succ bound ih =>
      obtain ⟨next, _, steady'⟩ := exists_steadyAt_succ steady
      rcases homed_or_less_room (steady_dated steady (dates number)) next with homed | less
      · exact ⟨0, Nat.zero_le _, demand, steady, homed⟩
      · obtain ⟨more, few, settled⟩ :=
          ih steady' (Nat.le_of_lt_succ (Nat.lt_of_lt_of_le less within))
        exact ⟨more + 1, Nat.succ_le_succ few, by rwa [Nat.add_right_comm] at settled⟩

theorem room_le_listed (controller : Controller) (now : Instant) (world : World)
    (demand : Demand) : controller.room now world demand
      ≤ controller.settings.maxCertificates
        * (world.cloud.ofCluster controller.settings.clusterId).length := by
  refine (Placement.room_le ..).trans (Nat.mul_le_mul_left _ ?_)
  rw [seeds, Placement.seeded, List.length_map, Placement.byName, List.length_mergeSort]
  exact List.length_filterMap_le ..

/-- Passes in the same circumstances on a calm cloud come to rest. None behind the first creates a
stack, and after as many more as there are places on the stacks that the first one leaves no pass
makes a request. -/
theorem passes_come_to_rest (controller : Controller) (circumstances : Circumstances)
    (dates : Nat → Instant) (world : World) (later : Instant)
    (live : controller.settings.dryRun = false)
    (horizon : Horizon circumstances.now later controller.grace) (calm : controller.Calm world)
    (recordable : ∀ endpoints orchestrator,
      world.orchestrator.list circumstances.files = .ok (endpoints, orchestrator) →
        ∀ endpoint ∈ endpoints, endpoint.Recordable)
    (spares : ∀ endpoints orchestrator,
      world.orchestrator.list circumstances.files = .ok (endpoints, orchestrator) →
        world.cloud.Spares controller.freshName world.created (world.created + endpoints.length)) :
    ∃ listed, (controller.repeated circumstances dates world 1).cloud.listStacks
        controller.settings.clusterId = .ok listed ∧
      (∀ number, 1 ≤ number → ∀ spec,
        .create spec ∉ (controller.passAt circumstances dates world number).requests) ∧
      ∀ number, 2 + controller.settings.maxCertificates * listed.length ≤ number →
        (controller.passAt circumstances dates world number).requests = [] := by
  cases demanded : controller.demand? circumstances world.orchestrator with
  | none =>
      have idle (number : Nat) :
          (controller.passAt circumstances dates world number).requests = [] :=
        (pass_unasked (repeated_unasked demanded number).1 (dates number)).1
      have able : (controller.repeated circumstances dates world 1).cloud.Able :=
        (repeated_unasked demanded 1).2 ▸ calm.able
      refine ⟨_, Cloud.listStacks_of_able able _, ?_, fun number _ => idle number⟩
      intro number _ spec
      rw [idle number]
      exact List.not_mem_nil
  | some demand =>
      obtain ⟨endpoints, orchestrator, listed, _⟩ := exists_listed demanded
      obtain ⟨ready, _⟩ := ready_of_listed live horizon calm listed
        (recordable endpoints orchestrator listed) (spares endpoints orchestrator listed) demanded
      have steadyAt {number : Nat} (behind : 1 ≤ number) :
          ∃ next, controller.SteadyAt circumstances dates world later number next :=
        exists_steadyAt ready behind
      obtain ⟨next, steady⟩ := steadyAt (Nat.le_refl 1)
      refine ⟨_, Cloud.listStacks_of_able steady.calm.able _, ?_, ?_⟩
      · intro number behind spec
        obtain ⟨_, steady⟩ := steadyAt behind
        exact steady_creates_none (steady_dated steady (dates number)) spec
      · intro number behind
        obtain ⟨more, few, settled⟩ := exists_settled steady (room_le_listed ..)
        obtain ⟨former, rfl⟩ : ∃ former, number = former + 1 := ⟨number - 1, by omega⟩
        have done : controller.Settled circumstances dates world later former :=
          settled_of_le settled (by omega)
        exact (settled_succ done).2

def inherited : World :=
  { market with cloud := ({} : Cloud).insertStack abandoned }

theorem inherited_calm : steady.Calm inherited := by
  have only (name : StackName) (observed : ObservedStack)
      (presents : inherited.cloud.Presents steady.settings.clusterId name observed) :
      observed.Reflects abandoned := by
    have found : (({} : Table StackName Stack).insert "old" abandoned).get? name
        = some observed.stack := presents.found
    rw [Table.get?_insert] at found
    split at found
    · rw [Option.some.inj found]
      exact presents.reflects
    · cases found
  refine ⟨Cloud.insertStack_named Cloud.empty_named abandoned, ⟨rfl, rfl⟩, ?_, ?_⟩
  · intro name observed presents
    rw [(only name observed presents).stack_eq]
    rfl
  · intro name observed presents id moment stated
    have none : abandoned.tags.certificates = .ok {} := by decide +kernel
    have same := (only name observed presents).certificates
    rw [none] at same
    rw [← Except.ok.inj same] at stated
    cases stated

theorem inherited_comes_to_rest :
    Controller.ofSettings? steady.settings = some steady ∧ steady.settings.dryRun = false ∧
      Horizon noon.now ⟨1772370000, 0⟩ steady.grace ∧ steady.Calm inherited ∧
      ∃ listed, (steady.repeated noon (fun _ => noon.now) inherited 1).cloud.listStacks
          steady.settings.clusterId = .ok listed ∧
        (∀ number, 1 ≤ number → ∀ spec,
          .create spec ∉ (steady.passAt noon (fun _ => noon.now) inherited number).requests) ∧
        ∀ number, 2 + steady.settings.maxCertificates * listed.length ≤ number →
          (steady.passAt noon (fun _ => noon.now) inherited number).requests = [] := by
  have horizon : Horizon noon.now ⟨1772370000, 0⟩ steady.grace :=
    ⟨by decide, by decide, by decide +kernel, by decide +kernel, by decide +kernel⟩
  have listing : inherited.orchestrator.list noon.files
      = .ok (inherited.orchestrator.current, inherited.orchestrator) := rfl
  refine ⟨rfl, rfl, horizon, inherited_calm, ?_⟩
  refine passes_come_to_rest steady noon (fun _ => noon.now) inherited ⟨1772370000, 0⟩ rfl horizon
    inherited_calm ?_ ?_
  · intro endpoints orchestrator listed endpoint member
    rw [listing] at listed
    cases listed
    have plain : ∀ endpoint ∈ inherited.orchestrator.current,
        endpoint.webAcl = none ∧ endpoint.shared = true := by decide +kernel
    obtain ⟨unguarded, shared⟩ := plain endpoint member
    exact ⟨by simp [unguarded], by simp [shared]⟩
  · intro endpoints orchestrator listed
    rw [listing] at listed
    cases listed
    have two : inherited.created + inherited.orchestrator.current.length = 2 := by decide +kernel
    have apart : ∀ first < 2, ∀ second < 2,
        steady.freshName first = steady.freshName second → first = second := by decide +kernel
    have unused : ∀ number < 2,
        inherited.cloud.provisioned.get? (steady.freshName number) = none := by decide +kernel
    rw [two]
    exact ⟨fun first second _ below _ below' => apart first below second below',
      fun number _ => unused number⟩

end Controller

end IngressControl
