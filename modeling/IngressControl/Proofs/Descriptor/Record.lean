import IngressControl.Plan
import IngressControl.Proofs.Descriptor.Occupancy
import IngressControl.Proofs.Stack.Attributes
/-!
What a stack shows of the load balancer that it was provisioned for.

It shows the attributes, the certificates that took a place, each kept or with the second of its
removal, and no deletion time. A load balancer with the same attributes and the same certificates
in use finds nothing to mend on it.
-/

namespace IngressControl

/-- The grace period from now lasts a second or more and ends at a time that tags can state. -/
structure Horizon (now later : Instant) (grace : Span) : Prop where
  recent : Instant.distantPast < now
  long : Span.billion ≤ grace.nanos
  ends : now.plus? grace = some later
  plain : later.HasPlainYear

def Schedule.Storable (schedule : Schedule) : Prop :=
  ∀ id moment, schedule.get? id = some (some moment) → moment.Storable

theorem StackStatus.isComplete_iff {status : StackStatus} : status.isComplete = true ↔
    status.isFailed = false ∧ status.isInProgress = false ∧ status.isDeleting = false := by
  cases status <;> decide

namespace Descriptor

variable {now later : Instant} {grace : Span} {descriptor : Descriptor} {observed : ObservedStack}

def wanted (descriptor : Descriptor) (now later : Instant) (id : CertificateId) :
    Option (Option Instant) :=
  if descriptor.certificates.contains id then some none
  else (descriptor.existing.bind (·.certificates.get? id)).bind (remaining now later)

structure Rooted (descriptor : Descriptor) (observed : ObservedStack) : Prop where
  existing : descriptor.existing = some observed
  key : descriptor.key = observed.key
  shared : descriptor.shared = observed.shared
  owner : descriptor.owner = observed.owner

def Storable (descriptor : Descriptor) : Prop :=
  ∀ observed, descriptor.existing = some observed → observed.certificates.Storable

theorem wanted_eq_moment {id : CertificateId} {moment : Instant}
    (stated : descriptor.wanted now later id = some (some moment)) : moment = later ∨
      (now < moment ∧ ∃ observed, descriptor.existing = some observed ∧
        observed.certificates.get? id = some (some moment)) := by
  rw [wanted] at stated
  split at stated
  · cases stated
  · obtain ⟨removal, found, left⟩ := Option.bind_eq_some_iff.mp stated
    obtain ⟨observed, existing, found⟩ := Option.bind_eq_some_iff.mp found
    cases removal with
    | none =>
        cases left
        exact .inl rfl
    | some other =>
        rw [remaining] at left
        split at left
        · rename_i ahead
          cases left
          exact .inr ⟨ahead, observed, existing, found⟩
        · cases left

theorem wanted_ahead (horizon : Horizon now later grace) (storable : descriptor.Storable)
    {id : CertificateId} {moment : Instant}
    (stated : descriptor.wanted now later id = some (some moment)) :
    moment.HasPlainYear ∧ now < moment.stamped := by
  rcases wanted_eq_moment stated with rfl | ⟨ahead, observed, existing, found⟩
  · exact ⟨horizon.plain, Instant.now_lt_stamped horizon.long horizon.ends⟩
  · have kept := storable observed existing id moment found
    exact ⟨kept.plain, by rw [kept.stamped_eq]; exact ahead⟩

/-- A stack is observed as one that was provisioned for the load balancer. -/
structure Records (now later : Instant) (descriptor : Descriptor) (observed : ObservedStack) :
    Prop where
  key : observed.key = descriptor.key
  shared : observed.shared = descriptor.shared
  owner : observed.owner = descriptor.owner
  certificates : ∀ id, observed.certificates.get? id
    = (descriptor.wanted now later id).map (Option.map Instant.stamped)
  unscheduled : observed.deletionScheduledAt = none
  alarms : descriptor.alarms.isSome = true → observed.alarmHash? = descriptor.desiredAlarmHash

theorem records_moment (horizon : Horizon now later grace) (storable : descriptor.Storable)
    (records : descriptor.Records now later observed) {id : CertificateId} {moment : Instant}
    (stated : observed.certificates.get? id = some (some moment)) :
    moment.Storable ∧ now < moment := by
  rw [records.certificates] at stated
  obtain ⟨removal, found, same⟩ := Option.map_eq_some_iff.mp stated
  obtain ⟨other, rfl, rfl⟩ := Option.map_eq_some_iff.mp same
  obtain ⟨plain, ahead⟩ := wanted_ahead horizon storable found
  exact ⟨Instant.storable_stamped plain, ahead⟩

theorem records_storable (horizon : Horizon now later grace) (storable : descriptor.Storable)
    (records : descriptor.Records now later observed) : observed.certificates.Storable :=
  fun _ _ stated => (records_moment horizon storable records stated).1

theorem wanted_isSome (descriptor : Descriptor) (now later : Instant) (id : CertificateId) :
    (descriptor.wanted now later id).isSome = true ↔
      (descriptor.occupied now).contains id = true := by
  rw [contains_occupied, wanted, Keeps]
  by_cases used : descriptor.certificates.contains id = true
  · simp [used]
  · cases descriptor.existing with
    | none => simp [used]
    | some existing =>
        cases found : existing.certificates.get? id with
        | none => simp [used, found]
        | some removal => simp [used, found, remaining_isSome]

theorem records_live (horizon : Horizon now later grace) (storable : descriptor.Storable)
    (records : descriptor.Records now later observed) (id : CertificateId) :
    (Schedule.live observed.certificates now).contains id = true ↔
      (descriptor.occupied now).contains id = true := by
  rw [contains_live, ← wanted_isSome descriptor now later]
  constructor
  · rintro ⟨removal, found, -⟩
    rw [records.certificates] at found
    obtain ⟨other, same, -⟩ := Option.map_eq_some_iff.mp found
    rw [same]
    rfl
  · intro present
    obtain ⟨removal, same⟩ := Option.isSome_iff_exists.mp present
    have found := records.certificates id
    rw [same] at found
    cases removal with
    | none => exact ⟨none, found, rfl⟩
    | some moment =>
        have ahead := (records_moment horizon storable records found).2
        exact ⟨some moment.stamped, found, by simpa using ahead⟩

theorem records_of_spec (horizon : Horizon now later grace) (storable : descriptor.Storable)
    (recordable : descriptor.Recordable) {name : StackName} {cluster : String} {spec : StackSpec}
    (requested : descriptor.spec name cluster now grace = .ok spec) {stack : Stack}
    (tagged : stack.tags = spec.tags) :
    stack.IsOf cluster ∧ ∃ observed : ObservedStack, observed.Reflects stack ∧
      descriptor.Records now later observed := by
  obtain ⟨schedule, desired, looked⟩ := descriptor.desiredCertificates_get? horizon.ends
  have tagged : stack.tags = descriptor.tagsFor cluster schedule := by
    rw [Descriptor.spec, desired] at requested
    rw [tagged, ← Except.ok.inj requested]
  have legible (id : CertificateId) (moment : Instant)
      (stated : schedule.get? id = some (some moment)) : Tags.Legible moment := by
    rw [looked] at stated
    obtain ⟨plain, ahead⟩ := wanted_ahead horizon storable stated
    exact ⟨plain, Instant.secondText_ne_keepIndefinitely horizon.recent plain ahead⟩
  have plain : schedule.Plain := fun id moment stated => (legible id moment stated).plain
  refine ⟨Stack.isOf_of_tagsFor tagged, descriptor.shown schedule stack,
    shown_reflects recordable plain tagged, rfl, rfl, rfl, fun id => ?_, rfl, fun _ => ?_⟩
  · rw [shown, Tags.recalled_eq_written legible, Tags.get?_written, looked]
    rfl
  · rw [ObservedStack.alarmHash?, shown, tagged]
    exact alarmHash_tagsFor ..

/-- A stack on which nothing is to be mended records the load balancer already. -/
theorem records_of_drift_eq_nil (horizon : Horizon now later grace)
    (storable : observed.certificates.Storable) (rooted : descriptor.Rooted observed)
    (quiet : descriptor.drift now grace = .ok []) : descriptor.Records now later observed := by
  obtain ⟨schedule, desired, looked⟩ := descriptor.desiredCertificates_get? horizon.ends
  rw [drift, rooted.existing] at quiet
  simp only [desired, Except.map, Except.ok.injEq, driftFrom, List.append_eq_nil_iff] at quiet
  obtain ⟨⟨⟨⟨_, _⟩, certificates⟩, alarms⟩, deletion⟩ := quiet
  have spared {part : Drift} {differs : Prop} [Decidable differs]
      (none : driftIf part differs = []) : ¬ differs := by
    simpa [driftIf] using none
  have same : observed.certificates = schedule := by
    simpa using spared certificates
  refine ⟨rooted.key.symm, rooted.shared.symm, rooted.owner.symm, fun id => ?_, ?_, ?_⟩
  · have found := looked id
    rw [← same] at found
    rw [wanted, ← found]
    cases stated : observed.certificates.get? id with
    | none => rfl
    | some removal =>
        cases removal with
        | none => rfl
        | some moment => simp [(storable id moment stated).stamped_eq]
  · simpa [driftIf] using deletion
  · intro known
    by_contra differs
    exact spared alarms ⟨known, Ne.symm differs⟩

theorem remaining_of_records (horizon : Horizon now later grace) (storable : descriptor.Storable)
    (records : descriptor.Records now later observed) {id : CertificateId}
    (unused : ¬ descriptor.certificates.contains id = true) :
    (observed.certificates.get? id).bind (remaining now later)
      = observed.certificates.get? id := by
  cases found : observed.certificates.get? id with
  | none => rfl
  | some removal =>
      cases removal with
      | none =>
          rw [records.certificates, wanted, if_neg unused] at found
          obtain ⟨other, left, same⟩ := Option.map_eq_some_iff.mp found
          obtain ⟨former, _, left⟩ := Option.bind_eq_some_iff.mp left
          rw [Option.map_eq_none_iff.mp same] at left
          exact absurd left remaining_ne_kept
      | some moment =>
          have ahead := (records_moment horizon storable records found).2
          simp [remaining, ahead]

/-- Nothing is to be mended on a stack that was provisioned for the same attributes with the same
certificates in use. -/
theorem drift_eq_nil (horizon : Horizon now later grace) (storable : descriptor.Storable)
    (records : descriptor.Records now later observed) {next : Descriptor}
    (rooted : next.Rooted observed) (alarms : next.alarms = descriptor.alarms)
    (used : ∀ id, next.certificates.contains id = descriptor.certificates.contains id) :
    next.drift now grace = .ok [] := by
  obtain ⟨schedule, desired, looked⟩ := next.desiredCertificates_get? horizon.ends
  have certificates : observed.certificates = schedule := by
    apply Table.ext_get?
    intro id
    rw [looked, used, rooted.existing, Option.bind_some]
    by_cases inUse : descriptor.certificates.contains id = true
    · rw [if_pos inUse, records.certificates, wanted, if_pos inUse]
      rfl
    · rw [if_neg inUse, remaining_of_records horizon storable records inUse]
  have hash : next.alarms.isSome = true → next.desiredAlarmHash = observed.alarmHash? := by
    intro known
    rw [records.alarms (alarms ▸ known)]
    rw [alarms] at known
    obtain ⟨set, stated⟩ := Option.isSome_iff_exists.mp known
    simp only [desiredAlarmHash, alarms, stated]
  rw [drift, rooted.existing]
  simp only [desired, Except.map, driftFrom, driftIf, rooted.key, rooted.shared, rooted.owner,
    certificates, records.unscheduled]
  have quiet : ¬ (next.alarms.isSome = true ∧ next.desiredAlarmHash ≠ observed.alarmHash?) :=
    fun differs => differs.2 (hash differs.1)
  simp [quiet]

end Descriptor

end IngressControl
