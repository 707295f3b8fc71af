/-!
Finite maps kept as their entries in strictly increasing key order.

Two tables with the same look-ups have the same entries (`Table.ext_get?`), so equality of
tables is equality of maps, and every listing of a table is in key order. A set is a table
whose entries carry nothing.
-/

namespace IngressControl

/-- A finite map as its entries, each key once, in increasing order. -/
structure Table (κ ν : Type) [Ord κ] where
  entries : List (κ × ν)
  increasing : entries.Pairwise fun first second => compare first.1 second.1 = .lt

namespace Table

variable {κ ν : Type} [Ord κ]

section Entries

def lookup (key : κ) : List (κ × ν) → Option ν
  | [] => none
  | (stored, value) :: rest => if compare key stored = .eq then some value else lookup key rest

def insertEntry (key : κ) (value : ν) : List (κ × ν) → List (κ × ν)
  | [] => [(key, value)]
  | (stored, old) :: rest =>
      match compare key stored with
      | .lt => (key, value) :: (stored, old) :: rest
      | .eq => (key, value) :: rest
      | .gt => (stored, old) :: insertEntry key value rest

theorem mem_insertEntry {key : κ} {value : ν} {entry : κ × ν} {rows : List (κ × ν)}
    (member : entry ∈ insertEntry key value rows) : entry = (key, value) ∨ entry ∈ rows := by
  induction rows with
  | nil => simpa [insertEntry] using member
  | cons row rest ih =>
      obtain ⟨stored, old⟩ := row
      simp only [insertEntry] at member
      split at member
      · simpa using member
      · simp only [List.mem_cons] at member ⊢
        exact member.imp_right Or.inr
      · simp only [List.mem_cons] at member ⊢
        rcases member with rfl | member
        · exact .inr (.inl rfl)
        · exact (ih member).imp_right Or.inr

theorem insertEntry_increasing [Std.TransOrd κ] (key : κ) (value : ν) {rows : List (κ × ν)}
    (sorted : rows.Pairwise fun first second => compare first.1 second.1 = .lt) :
    (insertEntry key value rows).Pairwise fun first second => compare first.1 second.1 = .lt := by
  induction rows with
  | nil => simp [insertEntry]
  | cons row rest ih =>
      obtain ⟨stored, old⟩ := row
      obtain ⟨above, sorted⟩ := List.pairwise_cons.mp sorted
      simp only [insertEntry]
      split
      · rename_i below
        refine List.pairwise_cons.mpr ⟨fun entry member => ?_, List.pairwise_cons.mpr ⟨above, sorted⟩⟩
        rcases List.mem_cons.mp member with rfl | member
        · exact below
        · exact Std.TransCmp.lt_trans below (above entry member)
      · rename_i same
        refine List.pairwise_cons.mpr ⟨fun entry member => ?_, sorted⟩
        exact Std.TransCmp.lt_of_eq_of_lt same (above entry member)
      · rename_i beyond
        refine List.pairwise_cons.mpr ⟨fun entry member => ?_, ih sorted⟩
        rcases mem_insertEntry member with rfl | member
        · exact Std.OrientedCmp.lt_of_gt beyond
        · exact above entry member

end Entries

def empty : Table κ ν := ⟨[], .nil⟩

instance : EmptyCollection (Table κ ν) := ⟨empty⟩
instance : Inhabited (Table κ ν) := ⟨empty⟩

instance [DecidableEq κ] [DecidableEq ν] : DecidableEq (Table κ ν) := fun first second =>
  decidable_of_iff (first.entries = second.entries)
    ⟨fun same => by cases first; cases second; cases same; rfl, fun same => by rw [same]⟩

def get? (table : Table κ ν) (key : κ) : Option ν := lookup key table.entries

def contains (table : Table κ ν) (key : κ) : Bool := (table.get? key).isSome

def keys (table : Table κ ν) : List κ := table.entries.map Prod.fst

def values (table : Table κ ν) : List ν := table.entries.map Prod.snd

def size (table : Table κ ν) : Nat := table.entries.length

def isEmpty (table : Table κ ν) : Bool := table.entries.isEmpty

def filter (table : Table κ ν) (keep : κ → ν → Bool) : Table κ ν :=
  ⟨table.entries.filter fun entry => keep entry.1 entry.2, table.increasing.filter _⟩

def erase (table : Table κ ν) (key : κ) : Table κ ν :=
  table.filter fun stored _ => compare key stored != .eq

def mapValues {μ : Type} (table : Table κ ν) (change : κ → ν → μ) : Table κ μ :=
  ⟨table.entries.map fun entry => (entry.1, change entry.1 entry.2),
    List.pairwise_map.mpr table.increasing⟩

variable [Std.TransOrd κ]

def insert (table : Table κ ν) (key : κ) (value : ν) : Table κ ν :=
  ⟨insertEntry key value table.entries, insertEntry_increasing key value table.increasing⟩

/-- Inserts entries from the front, so that of two with one key the later stays. -/
def insertAll (table : Table κ ν) : List (κ × ν) → Table κ ν
  | [] => table
  | (key, value) :: rest => (table.insert key value).insertAll rest

def ofList (rows : List (κ × ν)) : Table κ ν := empty.insertAll rows

def modify (table : Table κ ν) (key : κ) (change : ν → ν) : Table κ ν :=
  match table.get? key with
  | none => table
  | some value => table.insert key (change value)

section Lookup

variable [Std.LawfulEqOrd κ]

omit [Std.TransOrd κ] in
theorem compare_eq_iff {first second : κ} : compare first second = .eq ↔ first = second :=
  ⟨Std.LawfulEqCmp.eq_of_compare, fun same => by subst same; simp⟩

omit [Std.TransOrd κ] in
theorem lookup_insertEntry (key wanted : κ) (value : ν) (rows : List (κ × ν)) :
    lookup wanted (insertEntry key value rows)
      = if compare wanted key = .eq then some value else lookup wanted rows := by
  induction rows with
  | nil => simp [insertEntry, lookup]
  | cons row rest ih =>
      obtain ⟨stored, old⟩ := row
      simp only [insertEntry]
      split
      · simp [lookup]
      · rename_i same
        have same := compare_eq_iff.mp same
        subst same
        simp only [lookup]
        split <;> simp_all
      · rename_i beyond
        simp only [lookup, ih]
        by_cases at_stored : compare wanted stored = .eq
        · have at_stored := compare_eq_iff.mp at_stored
          subst at_stored
          have : compare wanted key ≠ .eq := by
            intro same
            rw [compare_eq_iff.mp same] at beyond
            simp [Std.ReflCmp.compare_self] at beyond
          simp [this, Std.ReflCmp.compare_self]
        · simp [at_stored]

@[simp] theorem get?_insert (table : Table κ ν) (key wanted : κ) (value : ν) :
    (table.insert key value).get? wanted
      = if compare wanted key = .eq then some value else table.get? wanted :=
  lookup_insertEntry key wanted value table.entries

theorem get?_insert_self (table : Table κ ν) (key : κ) (value : ν) :
    (table.insert key value).get? key = some value := by
  simp [Std.ReflCmp.compare_self]

omit [Std.TransOrd κ] in
theorem lookup_eq_some_iff {key : κ} {value : ν} {rows : List (κ × ν)}
    (sorted : rows.Pairwise fun first second => compare first.1 second.1 = .lt) :
    lookup key rows = some value ↔ (key, value) ∈ rows := by
  induction rows with
  | nil => simp [lookup]
  | cons row rest ih =>
      obtain ⟨stored, old⟩ := row
      obtain ⟨above, sorted⟩ := List.pairwise_cons.mp sorted
      simp only [lookup, List.mem_cons, Prod.mk.injEq]
      split
      · rename_i same
        rw [compare_eq_iff.mp same]
        constructor
        · intro found
          exact .inl ⟨rfl, (Option.some.inj found).symm⟩
        · rintro (⟨-, rfl⟩ | member)
          · rfl
          · simpa [Std.ReflCmp.compare_self] using above _ member
      · rename_i differs
        rw [ih sorted]
        constructor
        · exact .inr
        · rintro (⟨rfl, -⟩ | member)
          · exact absurd Std.ReflCmp.compare_self differs
          · exact member

omit [Std.TransOrd κ] in
theorem mem_entries {table : Table κ ν} {key : κ} {value : ν} :
    (key, value) ∈ table.entries ↔ table.get? key = some value :=
  (lookup_eq_some_iff table.increasing).symm

omit [Std.LawfulEqOrd κ] in
theorem entries_unique {first second : List (κ × ν)}
    (rising : first.Pairwise fun lower upper => compare lower.1 upper.1 = .lt)
    (rising' : second.Pairwise fun lower upper => compare lower.1 upper.1 = .lt)
    (same : ∀ entry, entry ∈ first ↔ entry ∈ second) : first = second := by
  have irreflexive (entry : κ × ν) : ¬ compare entry.1 entry.1 = .lt := by
    simp [Std.ReflCmp.compare_self]
  induction first generalizing second with
  | nil =>
      cases second with
      | nil => rfl
      | cons entry rest => exact absurd ((same entry).mpr (.head _)) List.not_mem_nil
  | cons entry rest ih =>
      cases second with
      | nil => exact absurd ((same entry).mp (.head _)) List.not_mem_nil
      | cons entry' rest' =>
          have ⟨above, rest_rises⟩ := List.pairwise_cons.mp rising
          have ⟨above', rest_rises'⟩ := List.pairwise_cons.mp rising'
          have heads : entry = entry' := by
            rcases List.mem_cons.mp ((same entry).mp (.head _)) with equal | member
            · exact equal
            · rcases List.mem_cons.mp ((same entry').mpr (.head _)) with equal | member'
              · exact equal.symm
              · exact absurd (Std.TransCmp.lt_trans (above entry' member') (above' entry member))
                  (irreflexive entry)
          subst heads
          congr 1
          refine ih rest_rises rest_rises' fun other => ⟨fun member => ?_, fun member => ?_⟩
          · rcases List.mem_cons.mp ((same other).mp (.tail _ member)) with rfl | found
            · exact absurd (above _ member) (irreflexive _)
            · exact found
          · rcases List.mem_cons.mp ((same other).mpr (.tail _ member)) with rfl | found
            · exact absurd (above' _ member) (irreflexive _)
            · exact found

@[ext] theorem ext_get? {first second : Table κ ν}
    (same : ∀ key, first.get? key = second.get? key) : first = second := by
  have entries := entries_unique first.increasing second.increasing fun entry => by
    rw [mem_entries, mem_entries, same]
  cases first
  cases second
  cases entries
  rfl

end Lookup

end Table

/-- A finite set: a table whose entries carry nothing. -/
abbrev KeySet (κ : Type) [Ord κ] := Table κ Unit

namespace KeySet

variable {κ : Type} [Ord κ] [Std.TransOrd κ]

def add (set : KeySet κ) (key : κ) : KeySet κ := Table.insert set key ()

def addAll (set : KeySet κ) : List κ → KeySet κ
  | [] => set
  | key :: rest => (set.add key).addAll rest

def ofList (keys : List κ) : KeySet κ := addAll Table.empty keys

def without (set other : KeySet κ) : List κ := set.keys.filter fun key => !other.contains key

end KeySet

end IngressControl
