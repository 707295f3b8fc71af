import IngressControl.Proofs.Decimal.Layout
import IngressControl.Proofs.Json.Quoted
/-!
The compact text of a value names it.

No text of a value starts another value with something else behind it: the first character tells
the kind, a number ends where a character stands that is in no number, and all others end with a
mark of their own. The text is read from its front, value by value.
-/

namespace IngressControl.Json

/-- A value that is written as itself: `unreadable` and numbers that are not finite are written as
`null`. -/
inductive Plain : Json → Prop
  | null : Plain .null
  | boolean (value : Bool) : Plain (.boolean value)
  | integer (value : Int) : Plain (.integer value)
  | number {value : Binary64} (proper : value.Proper) : Plain (.number value)
  | text (value : String) : Plain (.text value)
  | list {items : List Json} (plain : ∀ item ∈ items, Plain item) : Plain (.list items)
  | object {members : List (String × Json)} (plain : ∀ entry ∈ members, Plain entry.2) :
      Plain (.object members)

section Row

variable {α : Type} {write : α → List Char} {close : Char} {items others : List α}
  {rest rest' : List Char}

def row (write : α → List Char) (close : Char) : List α → List Char
  | [] => [close]
  | [item] => write item ++ [close]
  | item :: items => write item ++ ',' :: row write close items

def rowTail (write : α → List Char) (close : Char) (items : List α) : List Char :=
  if items.isEmpty then [close] else ',' :: row write close items

theorem row_cons (item : α) (items : List α) :
    row write close (item :: items) = write item ++ rowTail write close items := by
  cases items <;> rfl

theorem itemChars_eq_row (items : List Json) : itemChars items = row chars ']' items := by
  induction items with
  | nil => rfl
  | cons item items ih =>
      cases items with
      | nil => rfl
      | cons next items => rw [itemChars, row, ih] <;> simp

def entryChars (entry : String × Json) : List Char := quoted entry.1 ++ ':' :: entry.2.chars

theorem memberChars_eq_row (members : List (String × Json)) :
    memberChars members = row entryChars '\x7d' members := by
  induction members with
  | nil => rfl
  | cons entry members ih =>
      cases members with
      | nil => simp [memberChars, row, entryChars]
      | cons next members => rw [memberChars, row, ih] <;> simp [entryChars]

abbrev Stops (rest : List Char) : Prop := Text.Ends Decimal.isMark rest

theorem stops_rowTail (close_stops : Decimal.isMark close = false) (items : List α)
    (rest : List Char) : Stops (rowTail write close items ++ rest) := by
  rw [rowTail]
  split
  · exact Text.ends_cons.mpr close_stops
  · exact Text.ends_cons.mpr rfl

/-- A row is read item by item when its items can be told from each other and from its end. -/
theorem row_inj (close_stops : Decimal.isMark close = false) (no_comma : ',' ≠ close)
    (starts : ∀ item ∈ items ++ others, ∃ char tail, write item = char :: tail ∧ char ≠ close)
    (told : ∀ item ∈ items, ∀ other ∈ others, ∀ rest rest', Stops rest → Stops rest' →
      write item ++ rest = write other ++ rest' → item = other ∧ rest = rest')
    (same : row write close items ++ rest = row write close others ++ rest') :
    items = others ∧ rest = rest' := by
  induction items generalizing others with
  | nil =>
      cases others with
      | nil => exact ⟨rfl, (List.cons.inj same).2⟩
      | cons other others =>
          obtain ⟨char, tail, start, differs⟩ := starts other (.head _)
          rw [row_cons, start] at same
          exact absurd (List.cons.inj same).1.symm differs
  | cons item items ih =>
      cases others with
      | nil =>
          obtain ⟨char, tail, start, differs⟩ := starts item (.head _)
          rw [row_cons, start] at same
          exact absurd (List.cons.inj same).1 differs
      | cons other others =>
          rw [row_cons, row_cons, List.append_assoc, List.append_assoc] at same
          obtain ⟨rfl, tails⟩ := told item (.head _) other (.head _) _ _
            (stops_rowTail close_stops items rest) (stops_rowTail close_stops others rest') same
          rcases items with _ | ⟨next, items⟩ <;> rcases others with _ | ⟨next', others⟩
          · exact ⟨rfl, (List.cons.inj tails).2⟩
          · exact absurd (List.cons.inj tails).1.symm no_comma
          · exact absurd (List.cons.inj tails).1 no_comma
          · obtain ⟨same_items, same_rest⟩ := ih
              (fun entry member => starts entry ((List.mem_append.mp member).elim
                (fun mine => List.mem_append_left _ (.tail _ mine))
                (fun theirs => List.mem_append_right _ (.tail _ theirs))))
              (fun item member other member' => told item (.tail _ member) other (.tail _ member'))
              (List.cons.inj tails).2
            exact ⟨by rw [same_items], same_rest⟩

end Row

section Value

/-- The kinds of values that a first character tells apart. -/
inductive Kind where
  | null
  | boolean
  | number
  | text
  | list
  | object

def Kind.ofChar? (char : Char) : Option Kind :=
  match char with
  | 'n' => some .null
  | 't' => some .boolean
  | 'f' => some .boolean
  | '"' => some .text
  | '[' => some .list
  | '\x7b' => some .object
  | char => if char = '-' ∨ char.isDigit then some .number else none

def kind : Json → Kind
  | .null => .null
  | .boolean _ => .boolean
  | .integer _ => .number
  | .number _ => .number
  | .text _ => .text
  | .list _ => .list
  | .object _ => .object
  | .unreadable => .null

variable {value other : Json} {rest rest' : List Char}

theorem Kind.ofChar?_number {char : Char} (starts : char = '-' ∨ char.isDigit = true) :
    Kind.ofChar? char = some .number := by
  rw [Kind.ofChar?.eq_def]
  split
  iterate 6 exact absurd starts (by decide)
  exact if_pos starts

theorem toList_integer (value : Int) : (toString value).toList
    = (if value < 0 then ['-'] else []) ++ (toString value.natAbs).toList := by
  rw [Int.toString_eq_repr, Int.repr.eq_def]
  split
  · rename_i number
    have whole : ¬ Int.ofNat number < 0 := Int.not_lt.mpr (Int.natCast_nonneg number)
    rw [if_neg whole, ← Nat.toString_eq_repr]
    rfl
  · rw [if_pos (Int.negSucc_lt_zero _), ← Nat.toString_eq_repr, String.toList_append]
    rfl

theorem integer_marks (value : Int) :
    (∀ char ∈ (toString value).toList, char = '-' ∨ char.isDigit = true) ∧
      (toString value).toList ≠ [] := by
  rw [toList_integer]
  refine ⟨fun char member => ?_, ?_⟩
  · rcases List.mem_append.mp member with sign | digit
    · split at sign
      · exact .inl (List.mem_singleton.mp sign)
      · cases sign
    · exact .inr (Decimal.isDigit_toString _ char digit)
  · rw [Decimal.toList_toString]
    exact fun none => Nat.toDigits_ne_nil (List.append_eq_nil_iff.mp none).2

theorem isMark_integer (value : Int) :
    ∀ char ∈ (toString value).toList, Decimal.isMark char = true := by
  intro char member
  rcases (integer_marks value).1 char member with rfl | digit
  · rfl
  · exact Decimal.isMark_of_isDigit digit

theorem integer_text_injective {first second : Int}
    (same : (toString first).toList = (toString second).toList) : first = second := by
  have unsigned (number : Nat) (rest : List Char) : (toString number).toList ≠ '-' :: rest :=
    fun same => absurd (Decimal.isDigit_toString number '-' (same ▸ .head _)) (by decide)
  have naturals {number number' : Nat}
      (same : (toString number).toList = (toString number').toList) : number = number' := by
    rw [← Decimal.natural_toString number, same, Decimal.natural_toString]
  rw [toList_integer, toList_integer] at same
  by_cases below : first < 0 <;> by_cases below' : second < 0
  · rw [if_pos below, if_pos below'] at same
    have := naturals (List.cons.inj same).2
    omega
  · rw [if_pos below, if_neg below'] at same
    exact absurd same.symm (unsigned _ _)
  · rw [if_neg below, if_pos below'] at same
    exact absurd same (unsigned _ _)
  · rw [if_neg below, if_neg below'] at same
    have := naturals same
    omega

theorem integer_ne_number (value : Int) {number : Binary64} (proper : number.Proper) :
    (toString value).toList ≠ number.jsonText.toList := by
  intro same
  have none (char : Char) (other : ¬ (char = '-' ∨ char.isDigit = true)) :
      char ∉ number.jsonText.toList := fun member =>
    other ((integer_marks value).1 char (same ▸ member))
  exact proper.marks.2.1.elim (none '.' (by decide)) (none 'e' (by decide))

theorem Plain.starts (plain : value.Plain) :
    ∃ char tail, value.chars = char :: tail ∧ Kind.ofChar? char = some value.kind := by
  cases plain with
  | null => exact ⟨'n', _, rfl, rfl⟩
  | boolean value => cases value <;> exact ⟨_, _, rfl, rfl⟩
  | integer value =>
      obtain ⟨marks, filled⟩ := integer_marks value
      obtain ⟨char, tail, start⟩ := List.exists_cons_of_ne_nil filled
      exact ⟨char, tail, start, Kind.ofChar?_number (marks char (start ▸ .head _))⟩
  | number proper =>
      obtain ⟨_, _, char, tail, start, number⟩ := proper.marks
      exact ⟨char, tail, start, Kind.ofChar?_number number⟩
  | text value => exact ⟨'"', _, rfl, rfl⟩
  | list _ => exact ⟨'[', _, rfl, rfl⟩
  | object _ => exact ⟨'\x7b', _, rfl, rfl⟩

theorem Plain.kind_eq (plain : value.Plain) (plain' : other.Plain)
    (same : value.chars ++ rest = other.chars ++ rest') : value.kind = other.kind := by
  obtain ⟨char, tail, start, kind⟩ := plain.starts
  obtain ⟨char', tail', start', kind'⟩ := plain'.starts
  rw [start, start'] at same
  obtain rfl : char = char' := (List.cons.inj same).1
  exact Option.some.inj (kind.symm.trans kind')

/-- The text of a value ends where the value ends. -/
theorem Plain.chars_inj (plain : value.Plain) (plain' : other.Plain) (stops : Stops rest)
    (stops' : Stops rest') (same : value.chars ++ rest = other.chars ++ rest') :
    value = other ∧ rest = rest' := by
  induction plain generalizing other rest rest' with
  | null =>
      have kind := Plain.kind_eq .null plain' same
      cases plain' <;> cases kind
      exact ⟨rfl, List.append_cancel_left same⟩
  | boolean value =>
      have kind := Plain.kind_eq (.boolean value) plain' same
      cases plain' <;> cases kind
      rename_i value'
      cases value <;> cases value'
      · exact ⟨rfl, List.append_cancel_left same⟩
      · cases same
      · cases same
      · exact ⟨rfl, List.append_cancel_left same⟩
  | integer value =>
      have kind := Plain.kind_eq (.integer value) plain' same
      cases plain' <;> cases kind
      · rename_i value'
        obtain ⟨texts, rests⟩ := Text.run_inj (isMark_integer value) (isMark_integer value')
          stops stops' same
        exact ⟨congrArg _ (integer_text_injective texts), rests⟩
      · rename_i proper
        obtain ⟨texts, _⟩ := Text.run_inj (isMark_integer value) proper.marks.1 stops stops' same
        exact absurd texts (integer_ne_number value proper)
  | number proper =>
      have kind := Plain.kind_eq (.number proper) plain' same
      cases plain' <;> cases kind
      · rename_i value
        obtain ⟨texts, _⟩ := Text.run_inj proper.marks.1 (isMark_integer value) stops stops' same
        exact absurd texts.symm (integer_ne_number value proper)
      · rename_i proper'
        obtain ⟨texts, rests⟩ := Text.run_inj proper.marks.1 proper'.marks.1 stops stops' same
        exact ⟨congrArg _ (Binary64.jsonText_injective proper proper' (String.toList_inj.mp texts)),
          rests⟩
  | text value =>
      have kind := Plain.kind_eq (.text value) plain' same
      cases plain' <;> cases kind
      obtain ⟨texts, rests⟩ := quoted_inj same
      exact ⟨congrArg _ texts, rests⟩
  | @list items plain ih =>
      have kind := Plain.kind_eq (.list plain) plain' same
      cases plain' <;> cases kind
      rename_i others plain'
      have rows : row chars ']' items ++ rest = row chars ']' others ++ rest' := by
        rw [← itemChars_eq_row, ← itemChars_eq_row]
        exact (List.cons.inj same).2
      have starts : ∀ item ∈ items ++ others,
          ∃ char tail, item.chars = char :: tail ∧ char ≠ ']' := by
        intro item member
        have plain : item.Plain := (List.mem_append.mp member).elim (plain item) (plain' item)
        obtain ⟨char, tail, start, kind⟩ := plain.starts
        exact ⟨char, tail, start, fun closes => by rw [closes] at kind; cases kind⟩
      obtain ⟨lists, rests⟩ := row_inj rfl (by decide) starts
        (fun item member other member' _ _ stops stops' same =>
          ih item member (plain' other member') stops stops' same) rows
      exact ⟨congrArg _ lists, rests⟩
  | @object members plain ih =>
      have kind := Plain.kind_eq (.object plain) plain' same
      cases plain' <;> cases kind
      rename_i others plain'
      have rows : row entryChars '\x7d' members ++ rest = row entryChars '\x7d' others ++ rest' := by
        rw [← memberChars_eq_row, ← memberChars_eq_row]
        exact (List.cons.inj same).2
      have told : ∀ entry ∈ members, ∀ other ∈ others, ∀ rest rest', Stops rest → Stops rest' →
          entryChars entry ++ rest = entryChars other ++ rest' → entry = other ∧ rest = rest' := by
        intro entry member other member' rest rest' stops stops' same
        rw [entryChars, entryChars, List.append_assoc, List.append_assoc] at same
        obtain ⟨keys, tails⟩ := quoted_inj same
        obtain ⟨values, rests⟩ := ih entry member (plain' other member') stops stops'
          (List.cons.inj tails).2
        exact ⟨Prod.ext keys values, rests⟩
      obtain ⟨lists, rests⟩ := row_inj rfl (by decide)
        (fun entry _ => ⟨'"', _, rfl, by decide⟩) told rows
      exact ⟨congrArg _ lists, rests⟩

/-- Values with the same compact text are the same. -/
theorem compact_injective (plain : value.Plain) (plain' : other.Plain)
    (same : value.compact = other.compact) : value = other := by
  have chars : value.chars ++ [] = other.chars ++ [] := by
    simpa [compact] using congrArg String.toList same
  exact (plain.chars_inj plain' (Text.ends_nil _) (Text.ends_nil _) chars).1

end Value

end IngressControl.Json
