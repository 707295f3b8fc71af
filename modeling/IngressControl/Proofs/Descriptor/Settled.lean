import IngressControl.Proofs.Descriptor.Recall
/-!
How long a request lasts.

A load balancer that is seeded from the stack of its last request, with the same certificates in
use, finds nothing to mend until a removal time comes, and then nothing but the certificates. The
grace period does not matter, since every certificate out of use has its removal time already.
Only a removal time whose stamp stands for a certificate that is kept does not last.
-/

namespace IngressControl

/-- No removal time is written like that of a certificate that is kept. -/
def Schedule.Distinct (schedule : Schedule) : Prop :=
  ∀ id moment, schedule.get? id = some (some moment) → moment.stamped ≠ Instant.distantPast

namespace Descriptor

variable {descriptor next : Descriptor} {observed : ObservedStack} {schedule : Schedule}
  {now : Instant} {grace : Span}

/-- The load balancer as a later pass has it: seeded from the stack, with the same certificates in
use and the same alarms. -/
structure Resumes (descriptor : Descriptor) (observed : ObservedStack) (next : Descriptor) :
    Prop where
  rooted : next.Rooted observed
  alarms : next.alarms = descriptor.alarms
  used : ∀ id, next.certificates.contains id = descriptor.certificates.contains id

theorem resumes_seeded (descriptor : Descriptor) (observed : ObservedStack) :
    descriptor.Resumes observed
      { ofObserved observed descriptor.alarms with certificates := descriptor.certificates } :=
  ⟨⟨rfl, rfl, rfl, rfl⟩, rfl, fun _ => rfl⟩

theorem driftFrom_resumed (recalled : descriptor.Recalled schedule observed)
    (resumes : descriptor.Resumes observed next) (wanted : Schedule) :
    next.driftFrom observed wanted = driftIf .certificates (observed.certificates ≠ wanted) := by
  have alarms : ¬ (next.alarms.isSome = true ∧ next.desiredAlarmHash ≠ observed.alarmHash?) := by
    rintro ⟨known, differs⟩
    obtain ⟨set, stated⟩ := Option.isSome_iff_exists.mp known
    have stated' : descriptor.alarms = some set := resumes.alarms ▸ stated
    apply differs
    rw [recalled.alarms]
    simp only [desiredAlarmHash, stated, stated']
  simp [driftFrom, driftIf, resumes.rooted.key, resumes.rooted.shared, resumes.rooted.owner,
    recalled.unscheduled, alarms]

theorem plan_resumed (recalled : descriptor.Recalled schedule observed)
    (resumes : descriptor.Resumes observed next)
    (complete : observed.stack.status.isComplete = true)
    {wanted : Schedule} (desired : next.desiredCertificates now grace = .ok wanted) :
    next.plan now grace
      = .ok (if observed.certificates = wanted then .inSync else .update [.certificates]) := by
  obtain ⟨sound, idle, standing⟩ := StackStatus.isComplete_iff.mp complete
  rw [plan, drift, resumes.rooted.existing, desired]
  simp only [sound, idle, standing, Except.map, driftFrom_resumed recalled resumes, driftIf]
  by_cases same : observed.certificates = wanted <;> simp [same]

theorem recalled_unused (recalled : descriptor.Recalled schedule observed)
    (desired : descriptor.desiredCertificates now grace = .ok schedule)
    (distinct : schedule.Distinct) {id : CertificateId}
    (unused : descriptor.certificates.contains id = false) :
    observed.certificates.get? id ≠ some none := by
  rw [recalled.certificates]
  intro kept
  obtain ⟨removal, found, lost⟩ := Option.map_eq_some_iff.mp kept
  rcases desiredCertificates_origin desired found with ⟨_, used⟩ | ⟨moment, rfl, _⟩
  · rw [unused] at used
    cases used
  · rw [Option.bind_some, Instant.recalled, if_neg (distinct id moment found)] at lost
    cases lost

theorem recalled_used (recalled : descriptor.Recalled schedule observed)
    (desired : descriptor.desiredCertificates now grace = .ok schedule) {id : CertificateId}
    (used : descriptor.certificates.contains id = true) :
    observed.certificates.get? id = some none := by
  rw [recalled.certificates, desiredCertificates_used desired used]
  rfl

theorem desiredCertificates_resumed (recalled : descriptor.Recalled schedule observed)
    (desired : descriptor.desiredCertificates now grace = .ok schedule)
    (distinct : schedule.Distinct) (resumes : descriptor.Resumes observed next) (now' : Instant)
    (grace' : Span) : ∃ wanted, next.desiredCertificates now' grace' = .ok wanted ∧
      ∀ id, wanted.get? id = (observed.certificates.get? id).filter (·.all (now' < ·)) := by
  -- No certificate asks for the end of the grace period, so any moment can stand for it.
  have ends : ∀ existing id, next.existing = some existing →
      existing.certificates.get? id = some none → next.certificates.contains id = false →
        now'.plus? grace' = some now' := by
    intro existing id rooted kept unused
    rw [resumes.rooted.existing] at rooted
    cases rooted
    rw [resumes.used] at unused
    exact absurd kept (recalled_unused recalled desired distinct unused)
  obtain ⟨wanted, done, looked⟩ := next.desiredCertificates_of_ends ends
  refine ⟨wanted, done, fun id => ?_⟩
  rw [looked, resumes.used, resumes.rooted.existing, Option.bind_some]
  by_cases used : descriptor.certificates.contains id = true
  · rw [if_pos used, recalled_used recalled desired used]
    rfl
  · rw [if_neg used]
    cases found : observed.certificates.get? id with
    | none => rfl
    | some removal =>
        cases removal with
        | none =>
            exact absurd found
              (recalled_unused recalled desired distinct (by simpa using used))
        | some moment =>
            by_cases ahead : now' < moment <;> simp [remaining, Option.filter, ahead]

/-- The plan of a later pass, whenever it is made and whatever its grace period is. -/
structure Settles (observed : ObservedStack) (next : Descriptor) : Prop where
  quiet : ∀ now grace, (∀ id moment, observed.certificates.get? id = some (some moment) →
    now < moment) → next.plan now grace = .ok .inSync
  due : ∀ now grace id moment, observed.certificates.get? id = some (some moment) → moment ≤ now →
    next.plan now grace = .ok (.update [.certificates])

theorem settles_of_recalled (recalled : descriptor.Recalled schedule observed)
    (desired : descriptor.desiredCertificates now grace = .ok schedule)
    (distinct : schedule.Distinct) (complete : observed.stack.status.isComplete = true)
    (resumes : descriptor.Resumes observed next) : Settles observed next := by
  refine ⟨fun now' grace' ahead => ?_, fun now' grace' id moment stated due => ?_⟩
  · obtain ⟨wanted, done, looked⟩ :=
      desiredCertificates_resumed recalled desired distinct resumes now' grace'
    have same : observed.certificates = wanted := by
      apply Table.ext_get?
      intro id
      rw [looked]
      cases found : observed.certificates.get? id with
      | none => rfl
      | some removal =>
          cases removal with
          | none => rfl
          | some moment => simp [Option.filter, ahead id moment found]
    rw [plan_resumed recalled resumes complete done, if_pos same]
  · obtain ⟨wanted, done, looked⟩ :=
      desiredCertificates_resumed recalled desired distinct resumes now' grace'
    have differs : observed.certificates ≠ wanted := by
      intro same
      have gone := looked id
      rw [← same, stated] at gone
      simp [Option.filter, Instant.not_lt.mpr due] at gone
    rw [plan_resumed recalled resumes complete done, if_neg differs]

/-- Carrying out a request removes all drift until a removal time of the stack has come; from then
on the certificates are all that differs. -/
theorem spec_settles (descriptor : Descriptor) (name : StackName) (cluster : String)
    (now : Instant) (grace : Span) (schedule : Schedule) (recordable : descriptor.Recordable)
    (desired : descriptor.desiredCertificates now grace = .ok schedule) (plain : schedule.Plain)
    (distinct : schedule.Distinct) :
    ∃ spec, descriptor.spec name cluster now grace = .ok spec ∧
      ∀ stack : Stack, stack.tags = spec.tags → stack.status.isComplete = true →
        ∃ observed, ObservedStack.ofStack stack = .ok observed ∧
          ∀ next, descriptor.Resumes observed next → Settles observed next := by
  obtain ⟨spec, requested, stated⟩ := spec_eq_ok desired name cluster
  refine ⟨spec, requested, fun stack tagged complete => ?_⟩
  have tagged := tagged.trans stated
  have read := ObservedStack.ofStack_eq_ok_iff.mpr (shown_reflects recordable plain tagged)
  refine ⟨descriptor.shown schedule stack, read, fun next resumes => ?_⟩
  exact settles_of_recalled (shown_recalled tagged) desired distinct complete resumes

theorem leased_settles :
    ∃ schedule, leased.desiredCertificates ⟨1772366400, 5⟩ ⟨3600 * Span.billion⟩ = .ok schedule ∧
      ∃ spec, leased.spec "old" "shop" ⟨1772366400, 5⟩ ⟨3600 * Span.billion⟩ = .ok spec ∧
        ∀ stack : Stack, stack.tags = spec.tags → stack.status.isComplete = true →
          ∃ observed, ObservedStack.ofStack stack = .ok observed ∧
            ∀ next, leased.Resumes observed next → Settles observed next := by
  have ends : (⟨1772366400, 5⟩ : Instant).plus? ⟨3600 * Span.billion⟩ = some ⟨1772370000, 5⟩ := by
    decide +kernel
  obtain ⟨schedule, desired, plain, _, _, timed⟩ :=
    leased_desired ends ⟨by decide +kernel, by decide +kernel⟩
  have distinct : schedule.Distinct := by
    intro id moment stated
    rw [timed id moment stated]
    decide
  exact ⟨schedule, desired,
    spec_settles leased "old" "shop" _ _ schedule leased_recordable desired plain distinct⟩

theorem plan_of_lost (recalled : descriptor.Recalled schedule observed)
    (resumes : descriptor.Resumes observed next)
    (complete : observed.stack.status.isComplete = true)
    {later : Instant} (ends : now.plus? grace = some later) {id : CertificateId}
    (kept : observed.certificates.get? id = some none)
    (unused : descriptor.certificates.contains id = false) :
    next.plan now grace = .ok (.update [.certificates]) := by
  obtain ⟨wanted, done, looked⟩ := next.desiredCertificates_get? ends
  have again : wanted.get? id = some (some later) := by
    rw [looked, resumes.used, unused, resumes.rooted.existing, Option.bind_some, kept]
    rfl
  have differs : observed.certificates ≠ wanted := by
    intro same
    rw [same, again] at kept
    cases kept
  rw [plan_resumed recalled resumes complete done, if_neg differs]

/-- A removal time within the second of the distant past is lost, and the certificate that should
go is found to be kept. -/
theorem leased_unsettled :
    leased.Recordable ∧ ∃ schedule,
      leased.desiredCertificates ⟨-62135600400, 500000000⟩ ⟨3600 * Span.billion⟩ = .ok schedule ∧
      schedule.Plain ∧
      (∀ id moment, schedule.get? id = some (some moment) → moment ≠ Instant.distantPast) ∧
      ∃ spec, leased.spec "old" "shop" ⟨-62135600400, 500000000⟩ ⟨3600 * Span.billion⟩ = .ok spec ∧
        ∃ stack : Stack, stack.tags = spec.tags ∧ stack.status.isComplete = true ∧
          ∃ observed, ObservedStack.ofStack stack = .ok observed ∧
            (∀ id moment, observed.certificates.get? id ≠ some (some moment)) ∧
            ∃ next, leased.Resumes observed next ∧
              next.plan ⟨-62135600400, 500000000⟩ ⟨3600 * Span.billion⟩
                = .ok (.update [.certificates]) := by
  have ends : (⟨-62135600400, 500000000⟩ : Instant).plus? ⟨3600 * Span.billion⟩
      = some ⟨-62135596800, 500000000⟩ := by
    decide +kernel
  obtain ⟨schedule, desired, plain, _, unused, timed⟩ :=
    leased_desired ends ⟨by decide +kernel, by decide +kernel⟩
  have apart (id : CertificateId) (moment : Instant)
      (stated : schedule.get? id = some (some moment)) : moment ≠ Instant.distantPast := by
    rw [timed id moment stated]
    decide
  obtain ⟨spec, requested, stated⟩ := spec_eq_ok desired "old" "shop"
  let stack : Stack :=
    { name := "old", status := .updateComplete, dnsName := none, targetGroup := none
      createdAt := ⟨1767225600, 0⟩, tags := spec.tags }
  have tagged : stack.tags = leased.tagsFor "shop" schedule := stated
  have read := ObservedStack.ofStack_eq_ok_iff.mpr (shown_reflects leased_recordable plain tagged)
  have recalled : leased.Recalled schedule (leased.shown schedule stack) := shown_recalled tagged
  have gone : (⟨-62135596800, 500000000⟩ : Instant).recalled = none := by decide
  have lost (id : CertificateId) (moment : Instant) :
      (leased.shown schedule stack).certificates.get? id ≠ some (some moment) := by
    intro found
    rw [recalled.certificates] at found
    obtain ⟨removal, known, found⟩ := Option.map_eq_some_iff.mp found
    obtain ⟨due, rfl, found⟩ := Option.bind_eq_some_iff.mp found
    rw [timed id due known, Option.bind_some, gone] at found
    cases found
  have kept : (leased.shown schedule stack).certificates.get? "c2" = some none := by
    rw [recalled.certificates, unused, Option.map_some, Option.bind_some, gone]
  have resumes := resumes_seeded leased (leased.shown schedule stack)
  exact ⟨leased_recordable, schedule, desired, plain, apart, spec, requested, stack, rfl, rfl,
    leased.shown schedule stack, read, lost, _, resumes,
    plan_of_lost recalled resumes rfl ends kept (by decide)⟩

end Descriptor

end IngressControl
