import Mathlib.Data.List.Sort
import IngressControl.Proofs.Placement.Soundness
import IngressControl.Proofs.Placement.Stacks
/-!
The orders in which stacks and endpoints come to their placement.

Stacks are sorted by their names and endpoints by their identities, so it does not matter in which
order they are given. Insertion sorts them alike and recurs on the list itself, so that a placement
can be computed from it.
-/

namespace IngressControl.Placement

section Sorting

variable {α κ : Type} [Ord κ] (key : α → κ)

theorem orderedInsert_append {item : α} {front rear : List α}
    (above : ∀ other ∈ front, (compare (key item) (key other)).isLE = false)
    (below : ∀ other ∈ rear, (compare (key item) (key other)).isLE = true) :
    (front ++ rear).orderedInsert
        (fun first second => (compare (key first) (key second)).isLE = true) item
      = front ++ item :: rear := by
  induction front with
  | nil =>
      cases rear with
      | nil => rfl
      | cons next rear => exact List.orderedInsert_cons_of_le _ _ (below next (.head _))
  | cons other front ih =>
      have passed : ¬ (compare (key item) (key other)).isLE = true :=
        Bool.eq_false_iff.mp (above other (.head _))
      rw [List.cons_append, List.orderedInsert_cons, if_neg passed,
        ih fun other member => above other (.tail _ member), List.cons_append]

variable [Std.TransOrd κ]

theorem sorting_trans (first second third : α)
    (below : (compare (key first) (key second)).isLE = true)
    (below' : (compare (key second) (key third)).isLE = true) :
    (compare (key first) (key third)).isLE = true :=
  Std.TransCmp.isLE_trans below below'

theorem sorting_total (first second : α) :
    ((compare (key first) (key second)).isLE || (compare (key second) (key first)).isLE) = true := by
  have swapped : compare (key second) (key first) = (compare (key first) (key second)).swap :=
    Std.OrientedCmp.eq_swap
  rw [swapped]
  cases compare (key first) (key second) <;> rfl

/-- Items of different keys come out of the sorting alike, in whatever order they went in. -/
theorem mergeSort_eq_of_perm [Std.LawfulEqOrd κ] {items items' : List α} (shuffled : items.Perm items')
    (distinct : (items.map key).Nodup) :
    (items.mergeSort fun first second => (compare (key first) (key second)).isLE)
      = items'.mergeSort fun first second => (compare (key first) (key second)).isLE := by
  let le (first second : α) : Bool := (compare (key first) (key second)).isLE
  have sorted (items : List α) :
      (items.mergeSort le).Pairwise fun first second => le first second = true :=
    List.pairwise_mergeSort (sorting_trans key) (sorting_total key) items
  have same : (items.mergeSort le).Perm (items'.mergeSort le) :=
    ((List.mergeSort_perm items le).trans shuffled).trans (List.mergeSort_perm items' le).symm
  refine List.Perm.eq_of_pairwise ?_ (sorted items) (sorted items') same
  intro first second member member' below above
  have keys : key first = key second :=
    Std.LawfulEqCmp.eq_of_compare (Std.OrientedCmp.isLE_antisymm below above)
  have here := (List.mergeSort_perm items le).mem_iff.mp member
  have there := shuffled.mem_iff.mpr ((List.mergeSort_perm items' le).mem_iff.mp member')
  exact List.inj_on_of_nodup_map distinct here there keys

theorem mergeSort_increasing [Std.LawfulEqOrd κ] {items : List α}
    (distinct : (items.map key).Nodup) :
    (items.mergeSort fun first second => (compare (key first) (key second)).isLE).Pairwise
      fun lower upper => compare (key lower) (key upper) = .lt := by
  have sorted := List.pairwise_mergeSort (sorting_trans key) (sorting_total key) items
  have once := ((List.mergeSort_perm items fun first second =>
    (compare (key first) (key second)).isLE).map key).nodup_iff.mpr distinct
  refine (sorted.and (List.pairwise_map.mp once)).imp ?_
  rintro lower upper ⟨below, differs⟩
  cases order : compare (key lower) (key upper) with
  | lt => rfl
  | eq => exact absurd (Table.compare_eq_iff.mp order) differs
  | gt =>
      rw [order] at below
      cases below

theorem mergeSort_eq_insertionSort (items : List α) :
    (items.mergeSort fun first second => (compare (key first) (key second)).isLE)
      = items.insertionSort fun first second =>
          (compare (key first) (key second)).isLE = true := by
  induction items with
  | nil => rw [List.mergeSort_nil, List.insertionSort_nil]
  | cons item rest ih =>
      obtain ⟨front, rear, whole, sorted, above⟩ :=
        List.mergeSort_cons (sorting_trans key) (sorting_total key) item rest
      have ascending := List.pairwise_mergeSort (sorting_trans key) (sorting_total key) (item :: rest)
      rw [whole] at ascending
      have below := (List.pairwise_cons.mp (List.pairwise_append.mp ascending).2.1).1
      rw [List.insertionSort_cons, ← ih, sorted, whole,
        orderedInsert_append key (fun other member => by simpa using above other member) below]

end Sorting

theorem byName_increasing {listed : List Stack} (distinct : (listed.map Stack.name).Nodup) :
    ((byName (readable listed)).map ObservedStack.name).Pairwise fun lower upper =>
      compare lower upper = .lt :=
  List.pairwise_map.mpr <| mergeSort_increasing ObservedStack.name
    ((readable_names_sublist listed).nodup distinct)

theorem byIdentity_increasing {endpoints : List ResolvedEndpoint}
    (distinct : (endpoints.map fun resolved => resolved.endpoint.id).Nodup) :
    (byIdentity endpoints).Pairwise fun lower upper =>
      compare lower.endpoint.id upper.endpoint.id = .lt :=
  mergeSort_increasing (fun resolved : ResolvedEndpoint => resolved.endpoint.id) distinct

theorem placeAll_problems (policy : PlacementPolicy) (alarms : Option AlarmSet) (now : Instant)
    (descriptors : List Descriptor) (endpoints : List ResolvedEndpoint) :
    ∃ refusals, ∀ problems, (placeAll policy alarms now ⟨descriptors, problems⟩ endpoints).problems
      = problems ++ refusals := by
  induction endpoints generalizing descriptors with
  | nil => exact ⟨[], fun problems => (List.append_nil problems).symm⟩
  | cons resolved rest ih =>
      simp only [placeAll]
      cases place policy alarms now descriptors resolved with
      | ok after => exact ih after
      | error failure =>
          obtain ⟨refusals, behind⟩ := ih descriptors
          refine ⟨Problem.ofEndpoint resolved.endpoint.id.text failure :: refusals, fun problems => ?_⟩
          rw [behind, List.append_assoc, List.singleton_append]

/-- Where stacks have different names and endpoints different identities, the placement is the same in
whatever order they are given, and the problems are the same but for their order. -/
theorem ofStacks_perm (policy : PlacementPolicy) (alarms : Option AlarmSet) (now : Instant)
    {listed listed' : List Stack} {endpoints endpoints' : List ResolvedEndpoint}
    (shuffled : listed.Perm listed') (named : (listed.map Stack.name).Nodup)
    (reordered : endpoints.Perm endpoints')
    (distinct : (endpoints.map fun resolved => resolved.endpoint.id).Nodup) :
    (ofStacks policy listed endpoints alarms now).descriptors
        = (ofStacks policy listed' endpoints' alarms now).descriptors ∧
      (ofStacks policy listed endpoints alarms now).problems.Perm
        (ofStacks policy listed' endpoints' alarms now).problems := by
  have observed : byName (readable listed) = byName (readable listed') :=
    mergeSort_eq_of_perm ObservedStack.name (shuffled.filterMap _)
      ((readable_names_sublist listed).nodup named)
  have order : byIdentity endpoints = byIdentity endpoints' :=
    mergeSort_eq_of_perm (fun resolved : ResolvedEndpoint => resolved.endpoint.id) reordered distinct
  have seeds : (seeded listed alarms).descriptors = (seeded listed' alarms).descriptors := by
    rw [seeded, seeded, observed]
  rw [ofStacks, ofStacks, order]
  refine ⟨placeAll_descriptors_congr _ seeds, ?_⟩
  -- Both placements refuse the same endpoints, behind problems that only their order tells apart.
  obtain ⟨refusals, behind⟩ : ∃ refusals, ∀ problems, (placeAll policy alarms now
      ⟨(seeded listed' alarms).descriptors, problems⟩ (byIdentity endpoints')).problems
        = problems ++ refusals := placeAll_problems ..
  have first := behind (unreadable listed)
  rw [← seeds] at first
  have second := behind (unreadable listed')
  have unread : (unreadable listed).Perm (unreadable listed') := shuffled.filterMap _
  exact first ▸ second ▸ unread.append_right refusals

def jumble : List Stack :=
  [⟨"c", .createComplete, none, none, ⟨0, 0⟩, Tags.ownedBy "shop"⟩,
    ⟨"a", .createComplete, none, none, ⟨0, 0⟩, (Tags.ownedBy "shop").insert Tag.scheme "internal"⟩,
    ⟨"b", .createComplete, none, none, ⟨0, 0⟩, Tags.ownedBy "shop"⟩]

theorem jumble_perm :
    jumble.Perm jumble.reverse ∧ (jumble.map Stack.name).Nodup ∧ mixed.Perm mixed.reverse ∧
      (mixed.map fun resolved => resolved.endpoint.id).Nodup ∧
      unreadable jumble ≠ unreadable jumble.reverse ∧
      (ofStacks ⟨2, "plain"⟩ jumble mixed none ⟨0, 0⟩).descriptors
        = (ofStacks ⟨2, "plain"⟩ jumble.reverse mixed.reverse none ⟨0, 0⟩).descriptors ∧
      (ofStacks ⟨2, "plain"⟩ jumble mixed none ⟨0, 0⟩).problems.Perm
        (ofStacks ⟨2, "plain"⟩ jumble.reverse mixed.reverse none ⟨0, 0⟩).problems := by
  have shuffled := (List.reverse_perm jumble).symm
  have named : (jumble.map Stack.name).Nodup := by decide +kernel
  have reordered := (List.reverse_perm mixed).symm
  have distinct : (mixed.map fun resolved => resolved.endpoint.id).Nodup := by decide +kernel
  exact ⟨shuffled, named, reordered, distinct, by decide +kernel,
    ofStacks_perm ⟨2, "plain"⟩ none ⟨0, 0⟩ shuffled named reordered distinct⟩

theorem ofStacks_eq_insertion (policy : PlacementPolicy) (listed : List Stack)
    (endpoints : List ResolvedEndpoint) (alarms : Option AlarmSet) (now : Instant) :
    ofStacks policy listed endpoints alarms now
      = placeAll policy alarms now
          { descriptors := ((readable listed).insertionSort fun first second =>
              (compare first.name second.name).isLE = true).map (.ofObserved · alarms)
            problems := unreadable listed }
          (endpoints.insertionSort fun first second =>
            (compare first.endpoint.id second.endpoint.id).isLE = true) := by
  rw [ofStacks, seeded, byName, byIdentity, mergeSort_eq_insertionSort ObservedStack.name,
    mergeSort_eq_insertionSort fun resolved : ResolvedEndpoint => resolved.endpoint.id]

end IngressControl.Placement
