import Mathlib.Data.List.Nodup
import Mathlib.Data.List.Pairwise
import IngressControl.Proofs.Placement.Steps
import IngressControl.Proofs.Stack.Tags
/-!
Placement neither loses a stack nor adds one.

The load balancers that exist after placing all endpoints are those of the readable stacks, each
once. Stacks of different names therefore belong to different load balancers.
-/

namespace IngressControl.Placement

variable {policy : PlacementPolicy} {alarms : Option AlarmSet} {now : Instant}

theorem mem_readable {listed : List Stack} {observed : ObservedStack} :
    observed ∈ readable listed ↔ ∃ stack ∈ listed, ObservedStack.ofStack stack = .ok observed := by
  simp only [readable, List.mem_filterMap]
  constructor
  · rintro ⟨stack, member, read⟩
    cases outcome : ObservedStack.ofStack stack with
    | error failure =>
        rw [outcome] at read
        cases read
    | ok other =>
        rw [outcome] at read
        cases read
        exact ⟨stack, member, outcome⟩
  · rintro ⟨stack, member, read⟩
    exact ⟨stack, member, by rw [read]; rfl⟩

theorem readable_names_sublist (listed : List Stack) :
    ((readable listed).map ObservedStack.name).Sublist (listed.map Stack.name) := by
  induction listed with
  | nil => exact .slnil
  | cons stack rest ih =>
      cases read : ObservedStack.ofStack stack with
      | error failure =>
          rw [readable, List.filterMap_cons_none (by rw [read]; rfl)]
          exact ih.cons _
      | ok observed =>
          rw [readable, List.filterMap_cons_some (by rw [read]; rfl), List.map_cons, List.map_cons,
            ObservedStack.name, (ObservedStack.ofStack_eq_ok read).1]
          exact ih.cons_cons _

theorem next_existing (placement : Placement) (resolved : ResolvedEndpoint) :
    (next policy alarms now placement resolved).descriptors.filterMap Descriptor.existing
      = placement.descriptors.filterMap Descriptor.existing := by
  rw [next]
  cases placed : place policy alarms now placement.descriptors resolved with
  | error failure => rfl
  | ok after =>
      obtain ⟨_, ⟨before, target, behind, whole, _, rfl⟩ | ⟨_, rfl⟩⟩ := place_cases placed
      · rw [whole]
        simp [List.filterMap_append, List.filterMap_cons]
      · simp [List.filterMap_append]

theorem ofStacks_existing (listed : List Stack) (endpoints : List ResolvedEndpoint) :
    (ofStacks policy listed endpoints alarms now).descriptors.filterMap Descriptor.existing
      = byName (readable listed) := by
  apply placement_induction fun _ placement =>
    placement.descriptors.filterMap Descriptor.existing = byName (readable listed)
  · simp [seeded, Descriptor.ofObserved, List.filterMap_map]
  · intro earlier resolved placement _ kept
    rw [next_existing, kept]

theorem existing_readable {listed : List Stack} {endpoints : List ResolvedEndpoint}
    {descriptor : Descriptor} {observed : ObservedStack}
    (placed : descriptor ∈ (ofStacks policy listed endpoints alarms now).descriptors)
    (existing : descriptor.existing = some observed) :
    ∃ stack ∈ listed, ObservedStack.ofStack stack = .ok observed := by
  have member := List.mem_filterMap.mpr ⟨descriptor, placed, existing⟩
  rw [ofStacks_existing] at member
  exact mem_readable.mp (mem_byName.mp member)

def Unrelated (first second : Descriptor) : Prop :=
  ∀ name, first.stackName? = some name → second.stackName? ≠ some name

instance : Std.Symm Unrelated :=
  ⟨fun _ _ unrelated name named named' => unrelated name named' named⟩

theorem ofStacks_stackNames (listed : List Stack) (endpoints : List ResolvedEndpoint) :
    (ofStacks policy listed endpoints alarms now).descriptors.filterMap Descriptor.stackName?
      = (byName (readable listed)).map ObservedStack.name := by
  rw [← ofStacks_existing, List.map_filterMap]
  rfl

theorem ofStacks_stackNames_nodup {listed : List Stack} (endpoints : List ResolvedEndpoint)
    (distinct : (listed.map Stack.name).Nodup) :
    ((ofStacks policy listed endpoints alarms now).descriptors.filterMap
      Descriptor.stackName?).Nodup := by
  rw [ofStacks_stackNames]
  -- Names stay distinct when unreadable stacks are left out and the rest is sorted.
  have once := (readable_names_sublist listed).nodup distinct
  exact ((List.mergeSort_perm ..).map _).nodup_iff.mpr once

theorem ofStacks_unrelated {listed : List Stack} (endpoints : List ResolvedEndpoint)
    (distinct : (listed.map Stack.name).Nodup) :
    (ofStacks policy listed endpoints alarms now).descriptors.Pairwise Unrelated := by
  have names : ((ofStacks policy listed endpoints alarms now).descriptors.filterMap
      Descriptor.stackName?).Nodup := ofStacks_stackNames_nodup endpoints distinct
  refine (List.pairwise_filterMap.mp names).imp ?_
  intro first second apart name named named'
  exact apart name named name named' rfl

theorem stackName_unique {listed : List Stack} {endpoints : List ResolvedEndpoint}
    (distinct : (listed.map Stack.name).Nodup) {first second : Descriptor} {name : StackName}
    (placed : first ∈ (ofStacks policy listed endpoints alarms now).descriptors)
    (placed' : second ∈ (ofStacks policy listed endpoints alarms now).descriptors)
    (named : first.stackName? = some name) (named' : second.stackName? = some name) :
    first = second := by
  by_contra differs
  exact (ofStacks_unrelated endpoints distinct).forall placed placed' differs name named named'

theorem stackName_of_readable {listed : List Stack} (endpoints : List ResolvedEndpoint)
    {observed : ObservedStack} (member : observed ∈ readable listed) :
    ∃ descriptor ∈ (ofStacks policy listed endpoints alarms now).descriptors,
      descriptor.existing = some observed := by
  have kept : observed ∈ (ofStacks policy listed endpoints alarms now).descriptors.filterMap
      Descriptor.existing := by
    rw [ofStacks_existing]
    exact mem_byName.mpr member
  exact List.mem_filterMap.mp kept

theorem unnamed_of_unreadable {listed : List Stack} {endpoints : List ResolvedEndpoint}
    (distinct : (listed.map Stack.name).Nodup) {stack : Stack} (member : stack ∈ listed)
    {failure : Failure} (unread : ObservedStack.ofStack stack = .error failure)
    {descriptor : Descriptor}
    (placed : descriptor ∈ (ofStacks policy listed endpoints alarms now).descriptors) :
    descriptor.stackName? ≠ some stack.name := by
  intro named
  obtain ⟨observed, existing, same⟩ := Option.map_eq_some_iff.mp named
  obtain ⟨source, member', read⟩ := existing_readable placed existing
  have source_name : source.name = stack.name := by
    rw [← same, ← (ObservedStack.ofStack_eq_ok read).1]
    rfl
  have only := List.inj_on_of_nodup_map distinct member' member source_name
  rw [only, unread] at read
  cases read

theorem placeAll_descriptors_congr {first second : Placement} (endpoints : List ResolvedEndpoint)
    (same : first.descriptors = second.descriptors) :
    (placeAll policy alarms now first endpoints).descriptors
      = (placeAll policy alarms now second endpoints).descriptors := by
  induction endpoints generalizing first second with
  | nil => exact same
  | cons resolved rest ih =>
      rw [placeAll, placeAll, same]
      split
      · exact ih rfl
      · exact ih rfl

/-- The load balancers are the same as if a stack that cannot be read had not been listed. -/
theorem ofStacks_erase {listed : List Stack} (endpoints : List ResolvedEndpoint) {stack : Stack}
    (member : stack ∈ listed) {failure : Failure}
    (unread : ObservedStack.ofStack stack = .error failure) :
    (ofStacks policy (listed.erase stack) endpoints alarms now).descriptors
      = (ofStacks policy listed endpoints alarms now).descriptors := by
  have seeds : readable (listed.erase stack) = readable listed := by
    obtain ⟨front, rest, _, whole, erased⟩ := List.exists_erase_eq member
    rw [erased, whole]
    simp only [readable, List.filterMap_append]
    rw [List.filterMap_cons_none (by rw [unread]; rfl)]
  apply placeAll_descriptors_congr
  rw [seeded, seeded, seeds]

end IngressControl.Placement
