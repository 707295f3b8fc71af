import IngressControl.Proofs.Descriptor.Members
/-!
The certificates that take a place on a load balancer, counted and requested.

Placement counts the certificates in use together with those that the existing stack still keeps;
the request lists what the retirement of unused certificates leaves. Both are the same list, as
long as the end of the grace period can be represented.
-/

namespace IngressControl.Descriptor

def Keeps (descriptor : Descriptor) (now : Instant) (id : CertificateId) : Prop :=
  ∃ existing, descriptor.existing = some existing ∧
    ∃ removal, existing.certificates.get? id = some removal ∧ removal.all (now < ·) = true

theorem contains_live {schedule : Schedule} {now : Instant} {id : CertificateId} :
    (Schedule.live schedule now).contains id = true ↔
      ∃ removal, schedule.get? id = some removal ∧ removal.all (now < ·) = true := by
  simp only [Table.contains_iff, Schedule.live, Table.get?_filter, Option.filter_eq_some_iff]

theorem contains_occupied {descriptor : Descriptor} {now : Instant} {id : CertificateId} :
    (descriptor.occupied now).contains id = true ↔
      descriptor.certificates.contains id = true ∨ descriptor.Keeps now id := by
  rw [occupied, Keeps]
  cases descriptor.existing with
  | none => simp [KeySet.contains_ofList, Table.mem_keys_iff]
  | some existing =>
      simp only [KeySet.contains_addAll, KeySet.contains_ofList, Table.mem_keys_iff, contains_live,
        Option.some.injEq, exists_eq_left']
      exact or_comm

/-- Adding an endpoint takes exactly the places that admission counted for it. -/
theorem occupied_add (descriptor : Descriptor) (endpoint : Endpoint)
    (certificates : KeySet CertificateId) (now : Instant) :
    (descriptor.add endpoint certificates).occupied now
      = (descriptor.occupied now).addAll certificates.keys := by
  apply KeySet.eq_of_contains
  intro id
  rw [contains_occupied, KeySet.contains_addAll, contains_occupied, add, contains_enterAll,
    or_assoc]
  rfl

theorem occupied_add_first {descriptor : Descriptor} (unused : descriptor.certificates = {})
    (fresh : descriptor.existing = none) (endpoint : Endpoint)
    (certificates : KeySet CertificateId) (now : Instant) :
    (descriptor.add endpoint certificates).occupied now = certificates := by
  apply KeySet.eq_of_contains
  intro id
  rw [occupied_add, KeySet.contains_addAll, contains_occupied, Table.mem_keys_iff, Keeps, unused,
    fresh]
  simp [Table.contains]

/-- The removal time that retirement gives to an unused certificate; none when it is left out. -/
def remaining (now later : Instant) : Option Instant → Option (Option Instant)
  | none => some (some later)
  | some moment => if now < moment then some (some moment) else none

theorem remaining_isSome {now later : Instant} {removal : Option Instant} :
    (remaining now later removal).isSome = removal.all (now < ·) := by
  cases removal with
  | none => rfl
  | some moment => by_cases ahead : now < moment <;> simp [remaining, ahead]

theorem remaining_ne_kept {now later : Instant} {removal : Option Instant} :
    remaining now later removal ≠ some none := by
  cases removal with
  | none => simp [remaining]
  | some moment => by_cases ahead : now < moment <;> simp [remaining, ahead]

def retireOne (now later : Instant) (schedule : Schedule) (id : CertificateId)
    (removal : Option Instant) : Schedule :=
  if schedule.contains id then schedule
  else (remaining now later removal).elim schedule (schedule.insert id)

theorem retire_cons {now later : Instant} {grace : Span} (schedule : Schedule) (id : CertificateId)
    (removal : Option Instant) (rest : List (CertificateId × Option Instant))
    (ends : removal = none → schedule.contains id = false → now.plus? grace = some later) :
    retire schedule now grace ((id, removal) :: rest)
      = retire (retireOne now later schedule id removal) now grace rest := by
  rw [retireOne]
  by_cases known : schedule.contains id = true
  · simp only [retire, known, ↓reduceIte]
  · cases removal with
    | none => simp [retire, known, ends rfl (by simpa using known), remaining]
    | some moment =>
        by_cases ahead : now < moment
        · simp [retire, known, ahead, remaining]
        · simp [retire, known, ahead, remaining]

theorem retireOne_get?_self {now later : Instant} (schedule : Schedule) (id : CertificateId)
    (removal : Option Instant) : (retireOne now later schedule id removal).get? id
      = (schedule.get? id).or (remaining now later removal) := by
  rw [retireOne]
  cases found : schedule.get? id with
  | some value => simp [Table.contains, found]
  | none => cases remaining now later removal <;> simp [Table.contains, found]

theorem retireOne_get?_of_ne {now later : Instant} (schedule : Schedule) {id wanted : CertificateId}
    (removal : Option Instant) (differs : wanted ≠ id) :
    (retireOne now later schedule id removal).get? wanted = schedule.get? wanted := by
  rw [retireOne]
  split
  · rfl
  · cases remaining now later removal with
    | none => rfl
    | some value => exact Table.get?_insert_of_ne _ differs

theorem retireOne_keeps {now later : Instant} {schedule : Schedule} {wanted : CertificateId}
    (known : schedule.contains wanted = true) (id : CertificateId) (removal : Option Instant) :
    (retireOne now later schedule id removal).contains wanted = true := by
  by_cases same : wanted = id
  · subst same
    rw [retireOne, if_pos known, known]
  · rwa [Table.contains, retireOne_get?_of_ne _ _ same]

/-- Retirement ends, keeps what is scheduled already and decides each other certificate by itself. -/
theorem retire_get? {now later : Instant} {grace : Span} (schedule : Schedule)
    (rows : List (CertificateId × Option Instant))
    (increasing : rows.Pairwise fun first second => compare first.1 second.1 = .lt)
    (ends : ∀ id, (id, none) ∈ rows → schedule.contains id = false →
      now.plus? grace = some later) :
    ∃ result, retire schedule now grace rows = .ok result ∧ ∀ id, result.get? id
      = (schedule.get? id).or ((Table.lookup id rows).bind (remaining now later)) := by
  induction rows generalizing schedule with
  | nil => exact ⟨schedule, rfl, fun id => by simp [Table.lookup]⟩
  | cons row rest ih =>
      obtain ⟨stored, removal⟩ := row
      obtain ⟨above, increasing⟩ := List.pairwise_cons.mp increasing
      have left : ∀ id, (id, none) ∈ rest →
          (retireOne now later schedule stored removal).contains id = false →
            now.plus? grace = some later := by
        intro id member absent
        refine ends id (.tail _ member) (Bool.eq_false_iff.mpr fun known => ?_)
        rw [retireOne_keeps known] at absent
        cases absent
      obtain ⟨result, retired, looked⟩ :=
        ih (retireOne now later schedule stored removal) increasing left
      have first : removal = none → schedule.contains stored = false →
          now.plus? grace = some later := by
        rintro rfl
        exact ends stored (List.mem_cons_self ..)
      refine ⟨result, by rw [retire_cons _ _ _ _ first, retired], fun id => ?_⟩
      rw [looked]
      by_cases same : id = stored
      · subst same
        -- No later row has this key, so what the first row decides is final.
        have absent : Table.lookup id rest = none := Table.lookup_eq_none_of_below above
        rw [retireOne_get?_self, absent]
        simp [Table.lookup, Std.ReflCmp.compare_self]
      · rw [retireOne_get?_of_ne _ _ same]
        simp [Table.lookup, same]

theorem desiredCertificates_of_ends (descriptor : Descriptor) {now later : Instant} {grace : Span}
    (ends : ∀ existing id, descriptor.existing = some existing →
      existing.certificates.get? id = some none → descriptor.certificates.contains id = false →
        now.plus? grace = some later) :
    ∃ schedule, descriptor.desiredCertificates now grace = .ok schedule ∧ ∀ id, schedule.get? id
      = if descriptor.certificates.contains id then some none
        else (descriptor.existing.bind (·.certificates.get? id)).bind (remaining now later) := by
  have used (id : CertificateId) :
      (descriptor.certificates.mapValues fun _ _ => (none : Option Instant)).get? id
        = if descriptor.certificates.contains id then some none else none := by
    rw [Table.get?_mapValues, Table.contains]
    cases descriptor.certificates.get? id <;> rfl
  have unused (id : CertificateId)
      (absent : (descriptor.certificates.mapValues fun _ _ => (none : Option Instant)).contains id
        = false) : descriptor.certificates.contains id = false := by
    rw [Table.contains, used] at absent
    simpa using absent
  rw [desiredCertificates]
  cases old : descriptor.existing with
  | none => exact ⟨_, rfl, fun id => by rw [used]; rfl⟩
  | some existing =>
      obtain ⟨result, retired, looked⟩ := retire_get? _ existing.certificates.entries
        existing.certificates.increasing fun id kept absent =>
          ends existing id old (Table.mem_entries.mp kept) (unused id absent)
      refine ⟨result, retired, fun id => ?_⟩
      rw [looked, used]
      split <;> simp [Table.get?]

theorem desiredCertificates_get? (descriptor : Descriptor) {now later : Instant} {grace : Span}
    (ends : now.plus? grace = some later) :
    ∃ schedule, descriptor.desiredCertificates now grace = .ok schedule ∧ ∀ id, schedule.get? id
      = if descriptor.certificates.contains id then some none
        else (descriptor.existing.bind (·.certificates.get? id)).bind (remaining now later) :=
  descriptor.desiredCertificates_of_ends fun _ _ _ _ _ => ends

/-- What is scheduled already stays as it is, also where no grace period can be represented. -/
theorem retire_scheduled {schedule result : Schedule} {now : Instant} {grace : Span}
    {rows : List (CertificateId × Option Instant)} {id : CertificateId} {removal : Option Instant}
    (retired : retire schedule now grace rows = .ok result)
    (scheduled : schedule.get? id = some removal) : result.get? id = some removal := by
  induction rows generalizing schedule with
  | nil =>
      cases retired
      exact scheduled
  | cons row rest ih =>
      obtain ⟨stored, old⟩ := row
      by_cases known : schedule.contains stored = true
      · simp only [retire, known, ↓reduceIte] at retired
        exact ih retired scheduled
      · have differs : id ≠ stored := by
          rintro rfl
          exact known (Table.contains_iff.mpr ⟨removal, scheduled⟩)
        have later (value : Option Instant) : (schedule.insert stored value).get? id = some removal :=
          (Table.get?_insert_of_ne value differs).trans scheduled
        cases old with
        | none =>
            simp only [retire, known, Bool.false_eq_true, ↓reduceIte] at retired
            split at retired
            · cases retired
            · exact ih retired (later _)
        | some moment =>
            simp only [retire, known, Bool.false_eq_true, ↓reduceIte] at retired
            split at retired
            · exact ih retired (later _)
            · exact ih retired scheduled

theorem desiredCertificates_used {descriptor : Descriptor} {now : Instant} {grace : Span}
    {schedule : Schedule} (desired : descriptor.desiredCertificates now grace = .ok schedule)
    {id : CertificateId} (used : descriptor.certificates.contains id = true) :
    schedule.get? id = some none := by
  have kept : (descriptor.certificates.mapValues fun _ _ => (none : Option Instant)).get? id
      = some none := by
    obtain ⟨users, found⟩ := Table.contains_iff.mp used
    rw [Table.get?_mapValues, found]
    rfl
  rw [desiredCertificates] at desired
  cases existing : descriptor.existing with
  | none =>
      rw [existing] at desired
      cases desired
      exact kept
  | some observed =>
      simp only [existing] at desired
      exact retire_scheduled desired kept

theorem retire_added {schedule result : Schedule} {now : Instant} {grace : Span}
    {rows : List (CertificateId × Option Instant)} {id : CertificateId} {removal : Option Instant}
    (retired : retire schedule now grace rows = .ok result)
    (found : result.get? id = some removal) : schedule.get? id = some removal ∨
      ∃ moment, removal = some moment ∧
        (now.plus? grace = some moment ∨ (id, some moment) ∈ rows) := by
  induction rows generalizing schedule with
  | nil =>
      cases retired
      exact .inl found
  | cons row rest ih =>
      obtain ⟨stored, old⟩ := row
      have later {origin : Schedule} (retired : retire origin now grace rest = .ok result) :
          origin.get? id = some removal ∨ ∃ moment, removal = some moment ∧
            (now.plus? grace = some moment ∨ (id, some moment) ∈ (stored, old) :: rest) := by
        refine (ih retired).imp_right fun ⟨moment, timed, source⟩ => ⟨moment, timed, ?_⟩
        exact source.imp_right (.tail _)
      -- The certificate of this row is added with a time for which the row accounts.
      have added {moment : Instant}
          (retired : retire (schedule.insert stored (some moment)) now grace rest = .ok result)
          (source : now.plus? grace = some moment ∨ (stored, some moment) ∈ (stored, old) :: rest) :
          schedule.get? id = some removal ∨ ∃ moment, removal = some moment ∧
            (now.plus? grace = some moment ∨ (id, some moment) ∈ (stored, old) :: rest) := by
        rcases later retired with before | behind
        · by_cases same : id = stored
          · subst same
            rw [Table.get?_insert_self] at before
            exact .inr ⟨moment, (Option.some.inj before).symm, source⟩
          · rw [Table.get?_insert_of_ne _ same] at before
            exact .inl before
        · exact .inr behind
      by_cases known : schedule.contains stored = true
      · simp only [retire, known, ↓reduceIte] at retired
        exact later retired
      · cases old with
        | none =>
            simp only [retire, known, Bool.false_eq_true, ↓reduceIte] at retired
            split at retired
            · cases retired
            · rename_i ends
              exact added retired (.inl ends)
        | some moment =>
            simp only [retire, known, Bool.false_eq_true, ↓reduceIte] at retired
            split at retired
            · exact added retired (.inr (List.mem_cons_self ..))
            · exact later retired

theorem desiredCertificates_origin {descriptor : Descriptor} {now : Instant} {grace : Span}
    {schedule : Schedule} (desired : descriptor.desiredCertificates now grace = .ok schedule)
    {id : CertificateId} {removal : Option Instant} (found : schedule.get? id = some removal) :
    (removal = none ∧ descriptor.certificates.contains id = true) ∨
      ∃ moment, removal = some moment ∧ (now.plus? grace = some moment ∨
        ∃ existing, descriptor.existing = some existing ∧
          existing.certificates.get? id = some (some moment)) := by
  have kept (used : (descriptor.certificates.mapValues fun _ _ => (none : Option Instant)).get? id
      = some removal) : removal = none ∧ descriptor.certificates.contains id = true := by
    rw [Table.get?_mapValues] at used
    obtain ⟨users, stored, same⟩ := Option.map_eq_some_iff.mp used
    exact ⟨same.symm, Table.contains_iff.mpr ⟨users, stored⟩⟩
  rw [desiredCertificates] at desired
  cases old : descriptor.existing with
  | none =>
      rw [old] at desired
      cases desired
      exact .inl (kept found)
  | some existing =>
      simp only [old] at desired
      rcases retire_added desired found with before | ⟨moment, timed, source⟩
      · exact .inl (kept before)
      · refine .inr ⟨moment, timed, source.imp_right fun member => ?_⟩
        exact ⟨existing, rfl, Table.mem_entries.mp member⟩

theorem contains_desired {descriptor : Descriptor} {now later : Instant} {schedule : Schedule}
    (looked : ∀ id, schedule.get? id = if descriptor.certificates.contains id then some none
      else (descriptor.existing.bind (·.certificates.get? id)).bind (remaining now later))
    (id : CertificateId) : schedule.contains id = true ↔
      descriptor.certificates.contains id = true ∨ descriptor.Keeps now id := by
  rw [Table.contains, looked, Keeps]
  by_cases used : descriptor.certificates.contains id = true
  · simp [used]
  · cases descriptor.existing with
    | none => simp [used]
    | some existing =>
        cases found : existing.certificates.get? id with
        | none => simp [used, found]
        | some removal => simp [used, found, remaining_isSome]

/-- The request lists exactly the certificates that placement counts. -/
theorem spec_certificates (descriptor : Descriptor) (name : StackName) (cluster : String)
    {now later : Instant} {grace : Span} (ends : now.plus? grace = some later) :
    ∃ spec, descriptor.spec name cluster now grace = .ok spec ∧
      spec.certificates = (descriptor.occupied now).keys := by
  obtain ⟨schedule, desired, looked⟩ := descriptor.desiredCertificates_get? ends
  refine ⟨_, by rw [spec, desired]; rfl, ?_⟩
  apply Table.keys_eq_of_contains
  intro id
  rw [contains_desired looked, contains_occupied]

end IngressControl.Descriptor
