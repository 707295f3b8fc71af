import IngressControl.Descriptor.Basic
import IngressControl.Proofs.Table
/-!
Which endpoints a descriptor holds, and under which certificates.

The listing of a descriptor's endpoints keeps one record of each identity. As long as no two
records entered here share an identity, it lists exactly the records entered.
-/

namespace IngressControl.Descriptor

def Enters (descriptor : Descriptor) (id : CertificateId) (endpoint : Endpoint) : Prop :=
  endpoint ∈ (descriptor.certificates.get? id).getD []

def Serves (descriptor : Descriptor) (endpoint : Endpoint) : Prop :=
  ∃ id, descriptor.Enters id endpoint

@[simp] theorem add_existing (descriptor : Descriptor) (endpoint : Endpoint)
    (certificates : KeySet CertificateId) :
    (descriptor.add endpoint certificates).existing = descriptor.existing := rfl

theorem mem_enter {certificates : Table CertificateId (List Endpoint)} {endpoint other : Endpoint}
    {id wanted : CertificateId} :
    other ∈ ((enter certificates endpoint id).get? wanted).getD [] ↔
      other ∈ (certificates.get? wanted).getD [] ∨ (wanted = id ∧ other = endpoint) := by
  by_cases same : wanted = id
  · subst same
    simp [enter, Std.ReflCmp.compare_self]
  · rw [enter, Table.get?_insert_of_ne _ same]
    simp [same]

theorem mem_enterAll {certificates : Table CertificateId (List Endpoint)}
    {endpoint other : Endpoint} {ids : List CertificateId} {wanted : CertificateId} :
    other ∈ ((enterAll certificates endpoint ids).get? wanted).getD [] ↔
      other ∈ (certificates.get? wanted).getD [] ∨ (wanted ∈ ids ∧ other = endpoint) := by
  induction ids generalizing certificates with
  | nil => simp [enterAll]
  | cons id rest ih =>
      rw [enterAll, ih, mem_enter, List.mem_cons, or_and_right, or_assoc]

theorem contains_enterAll {certificates : Table CertificateId (List Endpoint)}
    {endpoint : Endpoint} {ids : List CertificateId} {wanted : CertificateId} :
    (enterAll certificates endpoint ids).contains wanted = true ↔
      wanted ∈ ids ∨ certificates.contains wanted = true := by
  induction ids generalizing certificates with
  | nil => simp [enterAll]
  | cons id rest ih =>
      rw [enterAll, ih, enter, Table.contains_insert, List.mem_cons, or_left_comm, or_assoc]

theorem enters_add {descriptor : Descriptor} {endpoint other : Endpoint}
    {certificates : KeySet CertificateId} {id : CertificateId} :
    (descriptor.add endpoint certificates).Enters id other ↔
      descriptor.Enters id other ∨ (certificates.contains id = true ∧ other = endpoint) := by
  rw [Enters, add, mem_enterAll, Table.mem_keys_iff, Enters]

theorem not_serves_of_unused {descriptor : Descriptor} (unused : descriptor.certificates = {})
    (endpoint : Endpoint) : ¬ descriptor.Serves endpoint := by
  rintro ⟨id, entered⟩
  simp [Enters, unused] at entered

theorem serves_add {descriptor : Descriptor} {endpoint other : Endpoint}
    {certificates : KeySet CertificateId}
    (served : (descriptor.add endpoint certificates).Serves other) :
    descriptor.Serves other ∨ other = endpoint := by
  obtain ⟨id, entered⟩ := served
  rcases enters_add.mp entered with before | ⟨_, same⟩
  · exact .inl ⟨id, before⟩
  · exact .inr same

theorem enters_contains {descriptor : Descriptor} {id : CertificateId} {endpoint : Endpoint}
    (entered : descriptor.Enters id endpoint) : descriptor.certificates.contains id = true := by
  rw [Enters] at entered
  rw [Table.contains]
  cases found : descriptor.certificates.get? id with
  | none => simp [found] at entered
  | some users => rfl

theorem hasEndpoints_iff {descriptor : Descriptor} :
    descriptor.hasEndpoints = true ↔ ∃ id, descriptor.certificates.contains id = true := by
  rw [hasEndpoints, Bool.not_eq_true', Table.isEmpty_eq_false_iff]

theorem hasEndpoints_of_serves {descriptor : Descriptor} {endpoint : Endpoint}
    (served : descriptor.Serves endpoint) : descriptor.hasEndpoints = true := by
  obtain ⟨id, entered⟩ := served
  exact hasEndpoints_iff.mpr ⟨id, enters_contains entered⟩

theorem get?_addFirst (known : Table EndpointId Endpoint) (endpoints : List Endpoint)
    (id : EndpointId) :
    (addFirst known endpoints).get? id =
      ((known.get? id).or (endpoints.find? fun endpoint => endpoint.id = id)) := by
  induction endpoints generalizing known with
  | nil => simp [addFirst]
  | cons endpoint rest ih =>
      rw [addFirst, ih]
      by_cases same : endpoint.id = id
      · subst same
        cases found : known.get? endpoint.id with
        | none => simp [Table.contains, found, Std.ReflCmp.compare_self]
        | some first => simp [Table.contains, found]
      · split
        · simp [same]
        · rw [Table.get?_insert_of_ne _ (Ne.symm same)]
          simp [same]

theorem mem_values_flatten_iff {descriptor : Descriptor} {endpoint : Endpoint} :
    endpoint ∈ descriptor.certificates.values.flatten ↔ descriptor.Serves endpoint := by
  simp only [List.mem_flatten, Table.mem_values_iff, Serves, Enters]
  constructor
  · rintro ⟨users, ⟨id, found⟩, member⟩
    exact ⟨id, by simpa [found] using member⟩
  · rintro ⟨id, member⟩
    cases found : descriptor.certificates.get? id with
    | none => simp [found] at member
    | some users => exact ⟨users, ⟨id, found⟩, by simpa [found] using member⟩

theorem mem_endpoints_iff {descriptor : Descriptor} {endpoint : Endpoint} :
    endpoint ∈ descriptor.endpoints ↔
      (descriptor.certificates.values.flatten.find? fun other => other.id = endpoint.id)
        = some endpoint := by
  simp only [endpoints, Table.mem_values_iff, get?_addFirst, Table.get?_empty, Option.none_or]
  constructor
  · rintro ⟨id, found⟩
    have same := List.find?_some found
    simp only [decide_eq_true_eq] at same
    rw [same]
    exact found
  · intro found
    exact ⟨endpoint.id, found⟩

theorem serves_of_mem_endpoints {descriptor : Descriptor} {endpoint : Endpoint}
    (member : endpoint ∈ descriptor.endpoints) : descriptor.Serves endpoint :=
  mem_values_flatten_iff.mp (List.mem_of_find?_eq_some (mem_endpoints_iff.mp member))

/-- No identity is lost in the listing, though another record may stand for it. -/
theorem exists_mem_endpoints {descriptor : Descriptor} {endpoint : Endpoint}
    (served : descriptor.Serves endpoint) :
    ∃ other ∈ descriptor.endpoints, other.id = endpoint.id := by
  have member := mem_values_flatten_iff.mpr served
  have present : (descriptor.certificates.values.flatten.find? fun other =>
      other.id = endpoint.id).isSome := List.find?_isSome.mpr ⟨endpoint, member, by simp⟩
  obtain ⟨other, found⟩ := Option.isSome_iff_exists.mp present
  have same : other.id = endpoint.id := by simpa using List.find?_some found
  refine ⟨other, mem_endpoints_iff.mpr ?_, same⟩
  rw [same]
  exact found

theorem mem_endpoints_iff_serves {descriptor : Descriptor}
    (distinct : ∀ first second, descriptor.Serves first → descriptor.Serves second →
      first.id = second.id → first = second) (endpoint : Endpoint) :
    endpoint ∈ descriptor.endpoints ↔ descriptor.Serves endpoint := by
  constructor
  · exact serves_of_mem_endpoints
  · intro served
    obtain ⟨other, member, same⟩ := exists_mem_endpoints served
    have equal := distinct other endpoint (serves_of_mem_endpoints member) served same
    exact equal ▸ member

theorem endpoints_ids (descriptor : Descriptor) : descriptor.endpoints.map Endpoint.id
    = (addFirst {} descriptor.certificates.values.flatten).keys := by
  simp only [endpoints, Table.values, Table.keys, List.map_map]
  apply List.map_congr_left
  intro entry member
  have found := Table.mem_entries.mp member
  rw [get?_addFirst, Table.get?_empty, Option.none_or] at found
  simpa using List.find?_some found

theorem endpoints_ids_nodup (descriptor : Descriptor) :
    (descriptor.endpoints.map Endpoint.id).Nodup := by
  rw [endpoints_ids]
  exact Table.keys_nodup _

theorem endpoints_increasing (descriptor : Descriptor) :
    descriptor.endpoints.Pairwise fun first second => compare first.id second.id = .lt := by
  have rising := Table.keys_increasing (addFirst {} descriptor.certificates.values.flatten)
  rw [← endpoints_ids] at rising
  exact List.pairwise_map.mp rising

theorem endpoints_eq_nil {descriptor : Descriptor} (unfilled : descriptor.hasEndpoints = false) :
    descriptor.endpoints = [] := by
  apply List.eq_nil_iff_forall_not_mem.mpr
  intro endpoint member
  have filled := hasEndpoints_of_serves (serves_of_mem_endpoints member)
  rw [unfilled] at filled
  contradiction

end IngressControl.Descriptor
