import IngressControl.Proofs.Pass.Handling
import IngressControl.Proofs.Pass.Rehearsal
/-!
A dry run changes nothing and foretells what the real pass reports.
-/

namespace IngressControl.Controller

open Attempt

variable {controller : Controller} {circumstances : Circumstances} {world : World}
  {endpoints : List Endpoint} {orchestrator : Orchestrator} {resolution : Resolution}
  {listed : List Stack}

def inMode (controller : Controller) (dryRun : Bool) : Controller :=
  { controller with settings := { controller.settings with dryRun } }

theorem pass_dry (dry : controller.settings.dryRun = true) (circumstances : Circumstances)
    (world : World) :
    (controller.pass circumstances world).world.cloud = world.cloud ∧
      (controller.pass circumstances world).world.orchestrator.statuses
        = world.orchestrator.statuses := by
  have rehearsed : (controller.stackPolicy circumstances.createdAt).dryRun = true := dry
  rcases controller.pass_stages circumstances world with
    ⟨same, _, _, _, statuses⟩ | ⟨_, orchestrator, _, _, prepared, _, acts⟩
  · exact ⟨same, statuses⟩
  · have listed := Orchestrator.list_statuses prepared.endpoints_listed
    have reconciled := StackWork.reconcileAll_dry rehearsed circumstances.now
      { cloud := world.cloud, created := world.created }
      (controller.pass circumstances world).placement.desired
    refine ⟨?_, ?_⟩
    · rcases stacks_of_acts acts with
        ⟨work, ended, _, _, cloud⟩ | ⟨work, cleaned, done, ended, _, _, cloud⟩
      · rw [cloud, ← ended]
        exact reconciled
      · have swept := StackWork.cleanUpAll_dry rehearsed circumstances.now
          { work with problems := [] } (controller.pass circumstances world).placement.orphaned
        rw [done] at reconciled
        rw [ended] at swept
        have same := swept.trans reconciled
        rcases cloud with stopped | synced
        · rw [stopped, same]
        · rw [synced, dry, TargetWork.sync_dry, same]
    · rcases orchestrator_of_acts acts with same | ⟨_, _, _, reported⟩
      · rw [same, listed]
      · rw [reported, statusWork, dry, StatusWork.reportAll_dry, ← listed]

theorem declared_of_placed {alarms : Option AlarmSet} {policy : PlacementPolicy}
    (keyed : world.orchestrator.Keyed)
    (prepared : Prepared controller circumstances world endpoints orchestrator resolution listed)
    {descriptor : Descriptor}
    (placed : descriptor ∈ (Placement.ofStacks policy listed resolution.resolved alarms
      circumstances.now).descriptors) {endpoint : Endpoint}
    (member : endpoint ∈ descriptor.endpoints) :
    orchestrator.endpoints.contains endpoint.id = true := by
  have keyed := Orchestrator.list_keyed keyed prepared.endpoints_listed
  obtain ⟨resolved, known, rfl, _⟩ := Placement.ofStacks_furnished descriptor placed endpoint
    (Descriptor.serves_of_mem_endpoints member)
  have current := (Resolution.ofEndpoints_covers prepared.resolved).handed.subset
    (List.mem_map_of_mem known)
  obtain ⟨_, _, rfl⟩ := Orchestrator.list_eq_ok_iff.mp prepared.endpoints_listed
  obtain ⟨stored, value, same⟩ := List.mem_map.mp current
  obtain ⟨key, found⟩ := Table.mem_values_iff.mp value
  rw [← same]
  refine Table.contains_iff.mpr ⟨stored, ?_⟩
  rw [keyed key stored found]
  exact found

/-- Nothing that changes the world is set to fail, and there are enough unused names for the stacks
that the dry run would create. The tables of the world are keyed as they always are. -/
structure Foreseeable (controller : Controller) (circumstances : Circumstances) (world : World) :
    Prop where
  named : world.cloud.Named
  keyed : world.orchestrator.Keyed
  willing : world.cloud.Willing
  reportable : world.orchestrator.failing.contains "update_endpoint_status" = false
  spares : world.cloud.Spares controller.freshName world.created
    (world.created + Descriptor.vacancies
      ((controller.inMode true).pass circumstances world).placement.desired)

/-- The report that is foretold says what the actual one says; it cannot know which addresses are
reported already. -/
structure Foretells (foreseen actual : Report) : Prop where
  stackChanges : foreseen.stackChanges = actual.stackChanges
  problems : foreseen.problems = actual.problems
  withheld : foreseen.statusChanges.withheld = actual.statusChanges.withheld
  skipped : foreseen.statusChanges.skipped = actual.statusChanges.skipped
  updated : foreseen.statusChanges.updated
    = actual.statusChanges.updated + actual.statusChanges.unchanged

theorem act_foretells {report : Report} {placement : Placement} {limit : Nat}
    {Declared : EndpointId → Prop}
    (remains : StackWork.Remains ((controller.inMode false).stackPolicy circumstances.createdAt)
      limit placement.orphaned placement.desired
      { cloud := world.cloud, created := world.created }
      { cloud := world.cloud, created := world.created })
    (statuses : Alongside (fun stop stop' => stop.1 = stop'.1) (StatusWork.Foretold Declared)
      ((controller.inMode true).statusWork circumstances world placement)
      ((controller.inMode false).statusWork circumstances world placement)) :
    Alongside Eq Foretells
      ((controller.inMode true).act circumstances world report listed placement).outcome
      ((controller.inMode false).act circumstances world report listed placement).outcome := by
  have live : ((controller.inMode false).stackPolicy circumstances.createdAt).dryRun = false := rfl
  have rehearsal : ((controller.inMode false).stackPolicy circumstances.createdAt).rehearsal
      = (controller.inMode true).stackPolicy circumstances.createdAt := rfl
  have wanted := StackWork.reconcileAll_foretold live circumstances.now remains
  rw [rehearsal] at wanted
  rcases alongside_cases wanted with
    ⟨_, _, broken, broken', same⟩ | ⟨reconciled, reconciled', done, done', remains⟩
  · rw [act_of_broken broken, act_of_broken broken', same]
    exact .error rfl
  rcases alongside_cases statuses with
    ⟨_, _, faltered, faltered', same⟩ | ⟨statuses, statuses', told, told', written⟩
  · rw [act_of_faltered done faltered, act_of_faltered done' faltered', same]
    exact .error rfl
  have unwanted := StackWork.cleanUpAll_foretold live circumstances.now remains
  rw [rehearsal] at unwanted
  rcases alongside_cases unwanted with
    ⟨_, _, stopped, stopped', same⟩ | ⟨cleaned, cleaned', swept, swept', foretold⟩
  · rw [act_of_swept done told stopped, act_of_swept done' told' stopped', same]
    exact .error rfl
  have targets : TargetWork.Foretold ((controller.inMode true).targetWork cleaned listed)
      ((controller.inMode false).targetWork cleaned' listed) :=
    TargetWork.sync_foretold _ _ ⟨rfl, foretold.failing, foretold.willing⟩
  rw [act_of_finished done told swept, act_of_finished done' told' swept']
  refine .ok ⟨foretold.changes.symm, ?_, written.withheld.symm, written.skipped.symm,
    written.updated⟩
  simp only [summary, remains.problems, written.problems, foretold.problems, targets.problems]

section Act

variable {placement : Placement}
  (prepared : Prepared controller circumstances world endpoints orchestrator resolution listed)
  (placing : placement = Placement.ofStacks controller.placementPolicy listed resolution.resolved
    (controller.alarms orchestrator).1 circumstances.now)

include prepared placing

theorem remains_of_prepared (named : world.cloud.Named) (willing : world.cloud.Willing)
    (spares : world.cloud.Spares controller.freshName world.created
      (world.created + Descriptor.vacancies placement.desired)) :
    StackWork.Remains ((controller.inMode false).stackPolicy circumstances.createdAt)
      (world.created + Descriptor.vacancies placement.desired) placement.orphaned placement.desired
      { cloud := world.cloud, created := world.created }
      { cloud := world.cloud, created := world.created } := by
  have found {descriptor : Descriptor} {observed : ObservedStack}
      (placed : descriptor ∈ placement.descriptors) (old : descriptor.existing = some observed) :
      world.cloud.provisioned.get? observed.name = some observed.stack := by
    rw [placing] at placed
    exact (found_of_listed named prepared.stacks_listed placed old).2.2
  have names : placement.handled.Nodup := by
    rw [(Placement.handled_perm _).nodup_iff, placing]
    exact Placement.ofStacks_stackNames_nodup resolution.resolved
      (Cloud.listStacks_names_nodup named prepared.stacks_listed)
  refine ⟨rfl, rfl, rfl, willing, ?_, ?_, spares, Nat.le_refl _⟩
  · intro observed member
    rcases List.mem_append.mp member with wanted | orphaned
    · obtain ⟨descriptor, placed, old⟩ := List.mem_filterMap.mp wanted
      exact found (List.mem_filter.mp placed).1 old
    · obtain ⟨descriptor, placed, _, old⟩ := Placement.mem_orphaned orphaned
      exact found placed old
  · rw [List.map_append, List.map_filterMap]
    exact names

theorem statuses_foretold (keyed : world.orchestrator.Keyed)
    (reportable : world.orchestrator.failing.contains "update_endpoint_status" = false) :
    Alongside (fun stop stop' => stop.1 = stop'.1)
      (StatusWork.Foretold fun id => orchestrator.endpoints.contains id = true)
      ((controller.inMode true).statusWork circumstances { world with orchestrator } placement)
      ((controller.inMode false).statusWork circumstances { world with orchestrator } placement) := by
  have permitted : orchestrator.failing.contains "update_endpoint_status" = false := by
    obtain ⟨_, _, rfl⟩ := Orchestrator.list_keeps prepared.endpoints_listed
    exact reportable
  refine StatusWork.reportAll_foretold _ _ _ (fun descriptor wanted endpoint member => ?_)
    ⟨rfl, rfl, rfl, rfl, fun id declared => ⟨permitted, declared⟩⟩
  have placed := (List.mem_filter.mp wanted).1
  rw [placing] at placed
  exact declared_of_placed keyed prepared placed member

end Act

/-- A dry run leaves the cloud and the reported addresses as they are, and if its outcome can be
foreseen, it is that of the pass that is carried out. -/
theorem dry_run_foretells (controller : Controller) (circumstances : Circumstances)
    (world : World) :
    (((controller.inMode true).pass circumstances world).world.cloud = world.cloud ∧
      ((controller.inMode true).pass circumstances world).world.orchestrator.statuses
        = world.orchestrator.statuses) ∧
    (Foreseeable controller circumstances world →
      Alongside Eq Foretells ((controller.inMode true).pass circumstances world).outcome
        ((controller.inMode false).pass circumstances world).outcome) := by
  refine ⟨pass_dry rfl circumstances world, ?_⟩
  rintro ⟨named, keyed, willing, reportable, spares⟩
  have view : SameView (controller.inMode true) (controller.inMode false) world world :=
    ⟨rfl, rfl, rfl, rfl, rfl⟩
  have abreast := pass_abreast view circumstances
  generalize (controller.inMode true).pass circumstances world = dry at abreast spares ⊢
  generalize (controller.inMode false).pass circumstances world = real at abreast ⊢
  cases abreast with
  | ended _ _ _ _ same blank =>
      rw [← same]
      cases outcome : dry.outcome with
      | error fault => exact .error rfl
      | ok report => exact .ok ⟨rfl, rfl, rfl, rfl, by rw [blank report outcome]; rfl⟩
  | acted report placement misses prepared placing =>
      have prepared : Prepared controller circumstances world _ _ _ _ :=
        ⟨prepared.endpoints_listed, prepared.resolved, prepared.stacks_listed⟩
      have remains := remains_of_prepared prepared placing named willing spares
      exact act_foretells remains (statuses_foretold prepared placing keyed reportable)

theorem deserted_foretold :
    ∃ foreseen actual, ((steady.inMode true).pass noon deserted).outcome = .ok foreseen ∧
      ((steady.inMode false).pass noon deserted).outcome = .ok actual ∧
      Foretells foreseen actual ∧ foreseen.stackChanges = { created := 1, scheduled := 1 } := by
  have named : deserted.cloud.Named := by
    have all : ∀ entry ∈ deserted.cloud.provisioned.entries, entry.2.name = entry.1 := by
      decide +kernel
    exact fun name stack found => all _ (Table.mem_entries.mpr found)
  have keyed : deserted.orchestrator.Keyed := by
    have all : ∀ entry ∈ deserted.orchestrator.endpoints.entries, entry.2.id = entry.1 := by
      decide +kernel
    exact fun id endpoint found => all _ (Table.mem_entries.mpr found)
  have new : Descriptor.vacancies ((steady.inMode true).pass noon deserted).placement.desired = 1 := by
    decide +kernel
  have spares : deserted.cloud.Spares steady.freshName deserted.created
      (deserted.created + Descriptor.vacancies
        ((steady.inMode true).pass noon deserted).placement.desired) := by
    rw [new]
    refine ⟨by omega, fun number _ below => ?_⟩
    obtain rfl : number = 0 := Nat.lt_one_iff.mp below
    decide +kernel
  have foretold := (dry_run_foretells steady noon deserted).2
    ⟨named, keyed, by unfold Cloud.Willing; decide +kernel, by decide +kernel, spares⟩
  have counted : ((steady.inMode true).pass noon deserted).outcome.toOption.map Report.stackChanges
      = some { created := 1, scheduled := 1 } := by decide +kernel
  rcases alongside_cases foretold with
    ⟨_, _, failed, _⟩ | ⟨foreseen, actual, rehearsed, carried, foretells⟩
  · rw [failed] at counted
    cases counted
  · rw [rehearsed] at counted
    exact ⟨foreseen, actual, rehearsed, carried, foretells, Option.some.inj counted⟩

end IngressControl.Controller
