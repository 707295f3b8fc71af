import IngressControl.Alarm.Resource
import IngressControl.Proofs.Alarm.Digest
import IngressControl.Proofs.Decimal.Rounding
/-!
Thresholds as they are read.

Whatever number stands in a document that was read from a text is in the one form in which finite
numbers are kept, and so is every finite threshold of alarms that were taken out of it.
-/

namespace IngressControl

def Binary64.Kept (value : Binary64) : Prop := value.isFinite = true → value.Proper

/-- All numbers in the document are in the one form, as far as they are finite. -/
inductive Document.Rounded : Document → Prop
  | scalar {readings : Scalar} (real : ∀ value ∈ readings.real, value.Kept) :
      Rounded (.scalar readings)
  | list {items : List Document} {positional : Positional}
      (rounded : ∀ item ∈ items, Rounded item) : Rounded (.list items positional)
  | record {members : List (String × Document)} {variant : Option String}
      (rounded : ∀ entry ∈ members, Rounded entry.2) : Rounded (.record members variant)

namespace Yaml

theorem kept_of_real? {text : String} {value : Binary64} (read : Yaml.real? text = some value) :
    value.Kept := by
  intro finite
  unfold Yaml.real? at read
  extract_lets chars at read
  split at read
  · cases read
    cases finite
  · split at read
    · cases read
      cases finite
    · split at read
      · cases read
        cases finite
      · exact Numeral.proper_of_real? (Option.filter_eq_some_iff.mp read).1 finite

theorem rounded_scalar (text : String) (style : ScalarStyle) (tag : Option String) :
    (Document.scalar (scalarReadings text style tag)).Rounded := by
  refine .scalar fun value read => ?_
  simp only [scalarReadings] at read
  split at read
  · exact kept_of_real? read
  · cases read

mutual

theorem Node.rounded_document : ∀ node : Node, node.document.Rounded
  | .scalar text style tag => by
      rw [Node.document]
      exact rounded_scalar text style tag
  | .sequence items _ => by
      rw [Node.document]
      exact .list (rounded_documents items)
  | .mapping pairs _ => by
      rw [Node.document]
      split
      · rename_i members read
        exact .record (rounded_pairDocuments pairs members read)
      · exact .scalar (by simp)
  | .unfinished => by
      rw [Node.document]
      exact .scalar (by simp)

theorem rounded_documents : ∀ items : List Node, ∀ document ∈ documents items, document.Rounded
  | [] => by simp [documents]
  | item :: items => by
      rw [documents, List.forall_mem_cons]
      exact ⟨item.rounded_document, rounded_documents items⟩

theorem rounded_pairDocuments : ∀ (pairs : List (Node × Node)) (members : List (String × Document)),
    pairDocuments pairs = some members → ∀ entry ∈ members, entry.2.Rounded
  | [], members, read => by
      cases read
      simp
  | (key, value) :: pairs, members, read => by
      rw [pairDocuments] at read
      split at read
      · rename_i name rest _ later
        cases read
        rw [List.forall_mem_cons]
        exact ⟨value.rounded_document, rounded_pairDocuments pairs rest later⟩
      · cases read

end

theorem rounded_document? {text : String} {document : Document}
    (read : document? text = some document) : document.Rounded := by
  obtain ⟨root, _, rfl⟩ := Option.map_eq_some_iff.mp read
  cases root with
  | none => exact .scalar (by simp)
  | some node => exact node.rounded_document

end Yaml

namespace Document

theorem mem_of_mapM {α β : Type} {decode : α → Option β} {items : List α} {values : List β}
    (read : items.mapM decode = some values) {value : β} (member : value ∈ values) :
    ∃ item ∈ items, decode item = some value := by
  induction items generalizing values with
  | nil =>
      cases read
      cases member
  | cons item items ih =>
      rw [List.mapM_cons] at read
      obtain ⟨first, decoded, read⟩ := Option.bind_eq_some_iff.mp read
      obtain ⟨rest, later, same⟩ := Option.bind_eq_some_iff.mp read
      cases same
      rcases List.mem_cons.mp member with rfl | member
      · exact ⟨item, .head _, decoded⟩
      · obtain ⟨other, present, decoded⟩ := ih later member
        exact ⟨other, .tail _ present, decoded⟩

theorem mem_positionalSlots {names : List String} {items : List Document} {value : Document}
    (member : Slot.given value ∈ positionalSlots names items) : value ∈ items := by
  induction names generalizing items with
  | nil => cases member
  | cons name names ih =>
      cases items with
      | nil =>
          rcases List.mem_cons.mp member with same | member
          · cases same
          · exact ih member
      | cons item items =>
          rcases List.mem_cons.mp member with same | member
          · cases same
            exact .head _
          · exact .tail _ (ih member)

theorem Rounded.field {document : Document} (rounded : document.Rounded) {names : List String}
    {slots : List Slot} (read : document.fields? names = some slots) {value : Document}
    (member : .given value ∈ slots) : value.Rounded := by
  cases rounded with
  | scalar =>
      rw [fields?] at read
      split at read
      · cases read
        simp at member
      · cases read
  | @list items positional rounded =>
      cases positional with
      | never => cases read
      | leading =>
          cases read
          exact rounded value (mem_positionalSlots member)
      | complete =>
          rw [fields?] at read
          split at read
          · cases read
            exact rounded value (mem_positionalSlots member)
          · cases read
  | @record members _ rounded =>
      obtain ⟨name, _, found⟩ := mem_of_mapM read member
      split at found
      · cases found
      · rename_i key stated alone
        cases found
        have present : (key, value) ∈ members.filter fun entry => entry.1 = name := by
          rw [alone]
          exact .head _
        exact rounded _ (List.mem_filter.mp present).1
      · cases found

theorem Rounded.kept {document : Document} (rounded : document.Rounded) {value : Binary64}
    (read : document.real? = some value) : value.Kept := by
  cases rounded with
  | scalar real => exact real value read
  | list => cases read
  | record => cases read

end Document

namespace AlarmDefinition

theorem kept_threshold {document : Document} (rounded : document.Rounded) {alarm : AlarmDefinition}
    (read : AlarmDefinition.ofDocument? document = some alarm) : alarm.threshold.Kept := by
  rw [AlarmDefinition.ofDocument?] at read
  obtain ⟨slots, fields, read⟩ := Option.bind_eq_some_iff.mp read
  split at read
  · rename_i threshold _ _ _ _
    -- The threshold is the eighth field that is decoded.
    iterate 7 obtain ⟨_, _, read⟩ := Option.bind_eq_some_iff.mp read
    obtain ⟨value, stated, read⟩ := Option.bind_eq_some_iff.mp read
    iterate 4 obtain ⟨_, _, read⟩ := Option.bind_eq_some_iff.mp read
    cases read
    cases threshold with
    | given document => exact (rounded.field fields (by simp)).kept stated
    | omitted => cases stated
    | beyond => cases stated
  · cases read

end AlarmDefinition

namespace AlarmSet

theorem finite_of_ofText {text place : String} {alarms : AlarmSet}
    (read : ofText text place = .ok alarms)
    (finite : ∀ alarm ∈ alarms, alarm.threshold.isFinite = true) : alarms.Finite := by
  rw [ofText] at read
  split at read
  · rename_i alarms' decoded
    cases read
    obtain ⟨document, parsed, decoded⟩ := Option.bind_eq_some_iff.mp decoded
    have rounded := Yaml.rounded_document? parsed
    intro alarm member
    cases rounded with
    | scalar =>
        rw [ofDocument?, Document.list?] at decoded
        split at decoded
        · cases decoded
          cases member
        · cases decoded
    | list rounded =>
        obtain ⟨item, present, decoded⟩ := Document.mem_of_mapM decoded member
        exact AlarmDefinition.kept_threshold (rounded item present) decoded (finite alarm member)
    | record => cases decoded
  · cases read

theorem finite_of_ofResource {resource : ConfigResource} {alarms : AlarmSet}
    (read : ofResource resource = .ok alarms)
    (finite : ∀ alarm ∈ alarms, alarm.threshold.isFinite = true) : alarms.Finite := by
  rw [ofResource] at read
  generalize resource.data.entries = entries at read
  induction entries generalizing alarms with
  | nil =>
      cases read
      intro alarm member
      cases member
  | cons entry rest ih =>
      rw [ofTexts] at read
      obtain ⟨first, own, read⟩ := Attempt.bind_eq_ok_iff.mp read
      obtain ⟨others, later, same⟩ := Attempt.bind_eq_ok_iff.mp read
      cases same
      obtain ⟨finite_first, finite_others⟩ := List.forall_mem_append.mp finite
      exact List.forall_mem_append.mpr ⟨finite_of_ofText own finite_first, ih finite_others later⟩

end AlarmSet

end IngressControl
