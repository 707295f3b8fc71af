import IngressControl.Endpoint.Basic
/-!
Identities that survive being written and read.

Only the parts of an identity that could be taken for a separator or for nothing get in the way;
what reading yields never has such parts.
-/

namespace IngressControl

namespace Text

theorem cutAt?_eq_some_iff {mark : Char} {chars before after : List Char} :
    cutAt? mark chars = some (before, after) ↔
      chars = before ++ mark :: after ∧ mark ∉ before := by
  induction chars generalizing before with
  | nil => simp [cutAt?]
  | cons char chars ih =>
      rw [cutAt?]
      by_cases here : char = mark
      · subst here
        cases before with
        | nil => simp
        | cons first before =>
            simp only [↓reduceIte, Option.some.injEq, Prod.mk.injEq, List.nil_eq, reduceCtorEq,
              false_and, List.cons_append, List.cons.injEq, List.mem_cons, not_or, false_iff]
            rintro ⟨⟨rfl, -⟩, differs, -⟩
            exact differs rfl
      · rw [if_neg here]
        cases before with
        | nil => simp [here]
        | cons first before =>
            simp only [Option.map_eq_some_iff, Prod.exists, Prod.mk.injEq, List.cons.injEq,
              List.cons_append, List.mem_cons, not_or]
            constructor
            · rintro ⟨front, rear, cut, ⟨rfl, rfl⟩, rfl⟩
              obtain ⟨whole, clear⟩ := ih.mp cut
              exact ⟨⟨rfl, whole⟩, Ne.symm here, clear⟩
            · rintro ⟨⟨rfl, whole⟩, _, clear⟩
              exact ⟨before, after, ih.mpr ⟨whole, clear⟩, ⟨rfl, rfl⟩, rfl⟩

theorem splitOnce?_eq_some_iff {mark : Char} {text before after : String} :
    splitOnce? mark text = some (before, after) ↔
      text.toList = before.toList ++ mark :: after.toList ∧ mark ∉ before.toList := by
  simp only [splitOnce?, Option.map_eq_some_iff, Prod.exists, Prod.mk.injEq, cutAt?_eq_some_iff]
  constructor
  · rintro ⟨front, rear, cut, rfl, rfl⟩
    simpa using cut
  · intro cut
    exact ⟨_, _, cut, String.ofList_toList, String.ofList_toList⟩

end Text

theorem Choice.name_of_ofName {α : Type} [Choice α] {text : String} {value : α}
    (read : Choice.ofName text = .ok value) : Choice.name value = text := by
  rw [Choice.ofName, Choice.ofName?] at read
  split at read
  · rename_i found
    cases read
    simpa using List.find?_some found
  · cases read

namespace EndpointId

structure Writable (id : EndpointId) : Prop where
  space_ne : id.space ≠ ""
  space_clear : '/' ∉ id.space.toList
  name_ne : id.name ≠ ""

theorem kind_clear (kind : EndpointKind) : '/' ∉ (Choice.name kind).toList := by
  cases kind <;> decide

theorem ofName_name (kind : EndpointKind) :
    (Choice.ofName (Choice.name kind) : Except String EndpointKind) = .ok kind := by
  cases kind <;> rfl

theorem ofText_text {id : EndpointId} (writable : id.Writable) : ofText id.text = .ok id := by
  have kind : Text.splitOnce? '/' id.text = some (Choice.name id.kind, id.space ++ "/" ++ id.name) :=
    Text.splitOnce?_eq_some_iff.mpr ⟨by simp [text], kind_clear id.kind⟩
  have space : Text.splitOnce? '/' (id.space ++ "/" ++ id.name) = some (id.space, id.name) :=
    Text.splitOnce?_eq_some_iff.mpr ⟨by simp, writable.space_clear⟩
  have filled : (id.space.isEmpty || id.name.isEmpty) = false := by
    simp [writable.space_ne, writable.name_ne]
  simp only [ofText, kind, space, filled, ofName_name]
  rfl

/-- A text names an identity when it is the one that this identity is written as and the identity
can be read back. -/
theorem ofText_eq_ok_iff {text : String} {id : EndpointId} :
    ofText text = .ok id ↔ text = id.text ∧ id.Writable := by
  refine ⟨fun read => ?_, fun ⟨same, writable⟩ => same ▸ ofText_text writable⟩
  rw [ofText] at read
  split at read
  · cases read
  · rename_i first rest front
    split at read
    · cases read
    · rename_i space name cut
      split at read
      · cases read
      · rename_i filled
        simp only [Bool.or_eq_true, String.isEmpty_iff, not_or] at filled
        cases named : (Choice.ofName first : Except String EndpointKind) with
        | error reason =>
            rw [named] at read
            cases read
        | ok kind =>
            rw [named] at read
            cases read
            obtain ⟨whole, _⟩ := Text.splitOnce?_eq_some_iff.mp front
            obtain ⟨tail, clear⟩ := Text.splitOnce?_eq_some_iff.mp cut
            refine ⟨?_, filled.1, clear, filled.2⟩
            rw [← String.toList_inj, whole, tail, EndpointId.text, Choice.name_of_ofName named]
            simp

theorem writable_of_ofText {text : String} {id : EndpointId} (read : ofText text = .ok id) :
    id.Writable := (ofText_eq_ok_iff.mp read).2

theorem ofText_text_iff {id : EndpointId} : ofText id.text = .ok id ↔ id.Writable :=
  ofText_eq_ok_iff.trans (and_iff_right rfl)

theorem text_injective {first second : EndpointId} (writable : first.Writable)
    (writable' : second.Writable) (same : first.text = second.text) : first = second := by
  have read := ofText_text writable
  rw [same, ofText_text writable'] at read
  exact (Except.ok.inj read).symm

end EndpointId

end IngressControl
