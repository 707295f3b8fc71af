import IngressControl.Table
/-!
Look-ups after each operation on a table, and sets by what they contain.

Tables that contain the same keys list them alike, so a statement about members decides the
listing and the size as well.
-/

namespace IngressControl

namespace Table

variable {κ ν μ : Type} [Ord κ]

@[simp] theorem get?_empty (key : κ) : (∅ : Table κ ν).get? key = none := rfl

theorem contains_iff {table : Table κ ν} {key : κ} :
    table.contains key = true ↔ ∃ value, table.get? key = some value :=
  Option.isSome_iff_exists

theorem isEmpty_iff {table : Table κ ν} : table.isEmpty = true ↔ table.entries = [] :=
  List.isEmpty_iff

theorem size_eq_keys (table : Table κ ν) : table.size = table.keys.length := by
  simp [size, keys]

theorem keys_increasing (table : Table κ ν) :
    table.keys.Pairwise fun first second => compare first second = .lt :=
  List.pairwise_map.mpr table.increasing

theorem lookup_map (change : κ → ν → μ) (key : κ) (rows : List (κ × ν))
    (lawful : ∀ stored, compare key stored = .eq → key = stored) :
    lookup key (rows.map fun entry => (entry.1, change entry.1 entry.2))
      = (lookup key rows).map (change key) := by
  induction rows with
  | nil => rfl
  | cons row rest ih =>
      obtain ⟨stored, value⟩ := row
      simp only [List.map_cons, lookup, ih]
      split
      · rename_i same
        rw [lawful stored same]
        rfl
      · rfl

theorem lookup_eq_none_of_below {key : κ} {rows : List (κ × ν)}
    (below : ∀ row ∈ rows, compare key row.1 = .lt) : lookup key rows = none := by
  induction rows with
  | nil => rfl
  | cons row rest ih =>
      have here := below row (List.mem_cons_self ..)
      rw [lookup, if_neg (by simp [here])]
      exact ih fun other member => below other (List.mem_cons_of_mem _ member)

variable [Std.LawfulEqOrd κ]

theorem get?_mapValues (table : Table κ ν) (change : κ → ν → μ) (key : κ) :
    (table.mapValues change).get? key = (table.get? key).map (change key) :=
  lookup_map change key table.entries fun _ same => compare_eq_iff.mp same

theorem mem_values_iff {table : Table κ ν} {value : ν} :
    value ∈ table.values ↔ ∃ key, table.get? key = some value := by
  simp only [values, List.mem_map, Prod.exists, exists_eq_right, mem_entries]

theorem mem_keys_iff {table : Table κ ν} {key : κ} :
    key ∈ table.keys ↔ table.contains key = true := by
  simp only [keys, List.mem_map, Prod.exists, exists_and_right, exists_eq_right, contains_iff,
    mem_entries]

theorem keys_nodup (table : Table κ ν) : table.keys.Nodup := by
  refine List.Pairwise.imp ?_ table.keys_increasing
  rintro first second below rfl
  simp [Std.ReflCmp.compare_self] at below

theorem get?_filter (table : Table κ ν) (keep : κ → ν → Bool) (key : κ) :
    (table.filter keep).get? key = (table.get? key).filter (keep key) := by
  apply Option.ext
  intro value
  rw [← mem_entries, Option.filter_eq_some_iff, ← mem_entries]
  simp [filter]

theorem contains_filter {table : Table κ ν} {keep : κ → Bool} {key : κ} :
    (table.filter fun key _ => keep key).contains key = true ↔
      table.contains key = true ∧ keep key = true := by
  rw [contains, contains, get?_filter]
  cases table.get? key <;> simp [Option.filter]

theorem get?_erase_self (table : Table κ ν) (key : κ) : (table.erase key).get? key = none := by
  rw [erase, get?_filter]
  cases table.get? key <;> simp [Option.filter, Std.ReflCmp.compare_self]

theorem get?_erase_of_ne {table : Table κ ν} {key wanted : κ} (differs : wanted ≠ key) :
    (table.erase key).get? wanted = table.get? wanted := by
  have apart : (compare key wanted != .eq) = true := by
    simpa [compare_eq_iff] using differs.symm
  rw [erase, get?_filter]
  cases table.get? wanted <;> simp [Option.filter, apart]

theorem isEmpty_eq_false_iff {table : Table κ ν} :
    table.isEmpty = false ↔ ∃ key, table.contains key = true := by
  constructor
  · intro filled
    cases entries : table.entries with
    | nil => simp [isEmpty, entries] at filled
    | cons entry rest =>
        exact ⟨entry.1, mem_keys_iff.mp (by simp [keys, entries])⟩
  · rintro ⟨key, present⟩
    have member := mem_keys_iff.mpr present
    apply Bool.eq_false_iff.mpr
    intro blank
    simp [keys, isEmpty_iff.mp blank] at member

variable [Std.TransOrd κ]

theorem erase_of_absent {table : Table κ ν} {key : κ} (absent : table.get? key = none) :
    table.erase key = table := by
  apply ext_get?
  intro wanted
  by_cases same : wanted = key
  · rw [same, get?_erase_self, absent]
  · exact get?_erase_of_ne same

theorem get?_insert_of_ne {table : Table κ ν} {key wanted : κ} (value : ν)
    (differs : wanted ≠ key) : (table.insert key value).get? wanted = table.get? wanted := by
  rw [get?_insert, if_neg fun same => differs (compare_eq_iff.mp same)]

theorem contains_insert {table : Table κ ν} {key wanted : κ} {value : ν} :
    (table.insert key value).contains wanted = true ↔
      wanted = key ∨ table.contains wanted = true := by
  by_cases same : wanted = key
  · subst same
    simp [contains, Std.ReflCmp.compare_self]
  · simp [contains, get?_insert_of_ne value same, same]

theorem get?_insertAll {rows : List (κ × ν)} {table : Table κ ν} {key : κ} {value : ν}
    (found : (table.insertAll rows).get? key = some value) :
    table.get? key = some value ∨ (key, value) ∈ rows := by
  induction rows generalizing table with
  | nil => exact .inl found
  | cons row rest ih =>
      rcases ih found with before | later
      · by_cases same : key = row.1
        · subst same
          rw [get?_insert_self] at before
          obtain rfl := Option.some.inj before
          exact .inr (.head _)
        · rw [get?_insert_of_ne _ same] at before
          exact .inl before
      · exact .inr (.tail _ later)

theorem get?_modify_self (table : Table κ ν) (key : κ) (change : ν → ν) :
    (table.modify key change).get? key = (table.get? key).map change := by
  cases found : table.get? key with
  | none => simp [modify, found]
  | some value => simp [modify, found, Std.ReflCmp.compare_self]

theorem get?_modify_of_ne {table : Table κ ν} {key wanted : κ} (change : ν → ν)
    (differs : wanted ≠ key) : (table.modify key change).get? wanted = table.get? wanted := by
  cases found : table.get? key with
  | none => simp [modify, found]
  | some value => simp only [modify, found, get?_insert_of_ne _ differs]

def AgreeOn (Wanted : κ → Prop) (first second : Table κ ν) : Prop :=
  ∀ key, Wanted key → first.get? key = second.get? key

section AgreeOn

variable {Wanted : κ → Prop} {first second table : Table κ ν} {key : κ}

omit [Std.LawfulEqOrd κ] [Std.TransOrd κ] in
theorem contains_of_agreeOn (agree : AgreeOn Wanted first second) (kind : Wanted key) :
    first.contains key = second.contains key := by
  rw [contains, contains, agree key kind]

theorem agreeOn_insert (agree : AgreeOn Wanted first second) (key : κ) (value : ν) :
    AgreeOn Wanted (first.insert key value) (second.insert key value) := by
  intro wanted kind
  rw [get?_insert, get?_insert, agree wanted kind]

omit [Std.TransOrd κ] in
theorem agreeOn_erase (agree : AgreeOn Wanted first second) (key : κ) :
    AgreeOn Wanted (first.erase key) (second.erase key) := by
  intro wanted kind
  rw [erase, erase, get?_filter, get?_filter, agree wanted kind]

theorem agreeOn_modify (agree : AgreeOn Wanted first second) (key : κ) (change : ν → ν) :
    AgreeOn Wanted (first.modify key change) (second.modify key change) := by
  intro wanted kind
  by_cases same : wanted = key
  · subst same
    rw [get?_modify_self, get?_modify_self, agree wanted kind]
  · rw [get?_modify_of_ne _ same, get?_modify_of_ne _ same, agree wanted kind]

omit [Ord κ] [Std.LawfulEqOrd κ] [Std.TransOrd κ] in
theorem ne_of_foreign {wanted : κ} (foreign : ¬ Wanted key) (kind : Wanted wanted) :
    wanted ≠ key := by
  rintro rfl
  exact foreign kind

theorem agreeOn_insert_of_not (foreign : ¬ Wanted key) (value : ν) :
    AgreeOn Wanted table (table.insert key value) := fun _ kind =>
  (get?_insert_of_ne value (ne_of_foreign foreign kind)).symm

omit [Std.TransOrd κ] in
theorem agreeOn_erase_of_not (foreign : ¬ Wanted key) :
    AgreeOn Wanted table (table.erase key) := fun _ kind =>
  (get?_erase_of_ne (ne_of_foreign foreign kind)).symm

theorem agreeOn_modify_of_not (foreign : ¬ Wanted key) (change : ν → ν) :
    AgreeOn Wanted table (table.modify key change) := fun _ kind =>
  (get?_modify_of_ne change (ne_of_foreign foreign kind)).symm

end AgreeOn

omit [Std.LawfulEqOrd κ] in
/-- Increasing keys are determined by which keys they are. -/
theorem increasing_keys_unique {first second : List κ}
    (rising : first.Pairwise fun lower upper => compare lower upper = .lt)
    (rising' : second.Pairwise fun lower upper => compare lower upper = .lt)
    (same : ∀ key, key ∈ first ↔ key ∈ second) : first = second := by
  have tagged : first.map (·, ()) = second.map (·, ()) :=
    entries_unique (List.pairwise_map.mpr rising) (List.pairwise_map.mpr rising') fun entry => by
      simp [Prod.ext_iff, same]
  have keys := congrArg (List.map Prod.fst) tagged
  simpa [Function.comp_def] using keys

theorem keys_eq_of_contains {first : Table κ ν} {second : Table κ μ}
    (same : ∀ key, first.contains key = true ↔ second.contains key = true) :
    first.keys = second.keys :=
  increasing_keys_unique first.keys_increasing second.keys_increasing fun key => by
    rw [mem_keys_iff, mem_keys_iff, same]

end Table

namespace KeySet

variable {κ : Type} [Ord κ] [Std.TransOrd κ] [Std.LawfulEqOrd κ]

theorem contains_add {set : KeySet κ} {key wanted : κ} :
    (set.add key).contains wanted = true ↔ wanted = key ∨ set.contains wanted = true :=
  Table.contains_insert

theorem contains_addAll {set : KeySet κ} {keys : List κ} {wanted : κ} :
    (set.addAll keys).contains wanted = true ↔ wanted ∈ keys ∨ set.contains wanted = true := by
  induction keys generalizing set with
  | nil => simp [addAll]
  | cons key rest ih =>
      rw [addAll, ih, contains_add, List.mem_cons, or_left_comm, or_assoc]

theorem contains_ofList {keys : List κ} {wanted : κ} :
    (ofList keys).contains wanted = true ↔ wanted ∈ keys := by
  rw [ofList, contains_addAll]
  exact or_iff_left Bool.false_ne_true

omit [Std.TransOrd κ] in
theorem mem_without {set other : KeySet κ} {key : κ} :
    key ∈ set.without other ↔ set.contains key = true ∧ other.contains key = false := by
  rw [without, List.mem_filter, Table.mem_keys_iff, Bool.not_eq_true']

theorem eq_of_contains {first second : KeySet κ}
    (same : ∀ key, first.contains key = true ↔ second.contains key = true) : first = second := by
  apply Table.ext_get?
  intro key
  have equal := Bool.eq_iff_iff.mpr (same key)
  simp only [Table.contains] at equal
  cases found : first.get? key <;> cases found' : second.get? key <;> simp_all

theorem ofList_keys (set : KeySet κ) : ofList set.keys = set :=
  eq_of_contains fun key => by rw [contains_ofList, Table.mem_keys_iff]

end KeySet

end IngressControl
