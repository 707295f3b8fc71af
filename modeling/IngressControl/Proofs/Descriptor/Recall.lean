import IngressControl.Proofs.Descriptor.Record
/-!
What a stack remembers of the load balancer that was requested for it.

The tags of a request hold the attributes, the alarms and the whole schedule of certificates. All
that is lost is the fraction of a removal time, and the time itself in the one second whose stamp
stands for a certificate that is kept.
-/

namespace IngressControl.Descriptor

variable {descriptor : Descriptor} {now : Instant} {grace : Span} {schedule : Schedule}

def Plain (descriptor : Descriptor) : Prop :=
  ∀ observed, descriptor.existing = some observed → observed.certificates.Plain

theorem desiredCertificates_plain
    (desired : descriptor.desiredCertificates now grace = .ok schedule)
    (ends : ∀ moment, now.plus? grace = some moment → moment.HasPlainYear)
    (plain : descriptor.Plain) : schedule.Plain := by
  intro id moment found
  rcases desiredCertificates_origin desired found with ⟨kept, _⟩ | ⟨_, timed, source⟩
  · cases kept
  · cases timed
    rcases source with ended | ⟨observed, existing, stated⟩
    · exact ends moment ended
    · exact plain observed existing id moment stated

theorem spec_eq_ok (desired : descriptor.desiredCertificates now grace = .ok schedule)
    (name : StackName) (cluster : String) :
    ∃ spec, descriptor.spec name cluster now grace = .ok spec ∧
      spec.tags = descriptor.tagsFor cluster schedule :=
  ⟨_, by rw [spec, desired]; rfl, rfl⟩

/-- A stack is observed as the load balancer with these certificates. -/
structure Recalled (descriptor : Descriptor) (schedule : Schedule) (observed : ObservedStack) :
    Prop where
  key : observed.key = descriptor.key
  shared : observed.shared = descriptor.shared
  owner : observed.owner = descriptor.owner
  unscheduled : observed.deletionScheduledAt = none
  alarms : observed.alarmHash? = descriptor.desiredAlarmHash
  certificates : ∀ id, observed.certificates.get? id
    = (schedule.get? id).map (·.bind Instant.recalled)
  /-- Outside of leap seconds the whole second of a removal time is what is recalled. -/
  truncated : ∀ id moment, schedule.get? id = some (some moment) → moment.isLeap = false →
    observed.certificates.get? id = some
      (if moment.second = Instant.distantPast.second then none else some ⟨moment.second, 0⟩)

theorem shown_recalled {stack : Stack} {cluster : String}
    (tagged : stack.tags = descriptor.tagsFor cluster schedule) :
    descriptor.Recalled schedule (descriptor.shown schedule stack) where
  key := rfl
  shared := rfl
  owner := rfl
  unscheduled := rfl
  alarms := by
    rw [ObservedStack.alarmHash?, shown, tagged]
    exact alarmHash_tagsFor ..
  certificates := Tags.get?_recalled schedule
  truncated id moment stated ordinary := by
    rw [shown, Tags.get?_recalled, stated, Option.map_some, Option.bind_some,
      Instant.recalled_of_ordinary ordinary]

/-- The tags of a request encode the whole load balancer: every stack that carries them can be
read, and what is read is the load balancer with the certificates that it should have. -/
theorem spec_recalled (descriptor : Descriptor) (name : StackName) (cluster : String)
    (now : Instant) (grace : Span) (schedule : Schedule) (recordable : descriptor.Recordable)
    (desired : descriptor.desiredCertificates now grace = .ok schedule) (plain : schedule.Plain) :
    ∃ spec, descriptor.spec name cluster now grace = .ok spec ∧
      ∀ stack : Stack, stack.tags = spec.tags →
        ∃ observed, ObservedStack.ofStack stack = .ok observed ∧
          descriptor.Recalled schedule observed := by
  obtain ⟨spec, requested, stated⟩ := spec_eq_ok desired name cluster
  refine ⟨spec, requested, fun stack tagged => ?_⟩
  have tagged := tagged.trans stated
  exact ⟨descriptor.shown schedule stack,
    ObservedStack.ofStack_eq_ok_iff.mpr (shown_reflects recordable plain tagged),
    shown_recalled tagged⟩

def leased : Descriptor where
  key :=
    { scheme := .internal, securityGroup := "", sslPolicy := "ELBSecurityPolicy-2016-08"
      loadBalancerType := .network, addressFamily := .dualstack, http2 := false
      webAcl := some "acl" }
  shared := false
  owner := some ⟨.routeGroup, "shop", "a/b"⟩
  certificates := ({} : Table CertificateId (List Endpoint)).insert "c1"
    [{ id := ⟨.routeGroup, "shop", "a/b"⟩, hostnames := ["h1.x"], shared := false }]
  alarms := some []
  existing := some {
    stack :=
      { name := "old", status := .updateComplete, dnsName := none, targetGroup := none
        createdAt := ⟨1767225600, 0⟩, tags := {} }
    key :=
      { scheme := .internal, securityGroup := "", sslPolicy := "ELBSecurityPolicy-2016-08"
        loadBalancerType := .network, addressFamily := .dualstack, http2 := false
        webAcl := some "acl" }
    shared := false
    owner := some ⟨.routeGroup, "shop", "a/b"⟩
    certificates := (({} : Schedule).insert "c1" none).insert "c2" none
    deletionScheduledAt := some ⟨1772366400, 0⟩ }

theorem leased_recordable : leased.Recordable where
  webAcl := by decide
  owner id owned := by
    cases owned
    exact ⟨by decide, by decide, by decide⟩
  owned _ := rfl

theorem leased_untimed {observed : ObservedStack} (existing : leased.existing = some observed)
    {id : CertificateId} {moment : Instant} :
    observed.certificates.get? id ≠ some (some moment) := by
  intro stated
  have untimed : ∀ removal ∈ observed.certificates.values, removal = none := by
    cases existing
    decide
  cases untimed _ (Table.mem_values_iff.mpr ⟨id, stated⟩)

theorem leased_desired {later : Instant} (ends : now.plus? grace = some later)
    (plain : later.HasPlainYear) :
    ∃ schedule, leased.desiredCertificates now grace = .ok schedule ∧ schedule.Plain ∧
      schedule.get? "c1" = some none ∧ schedule.get? "c2" = some (some later) ∧
      ∀ id moment, schedule.get? id = some (some moment) → moment = later := by
  obtain ⟨schedule, desired, looked⟩ := leased.desiredCertificates_get? ends
  have timed (id : CertificateId) (moment : Instant)
      (stated : schedule.get? id = some (some moment)) : moment = later := by
    rcases desiredCertificates_origin desired stated with
      ⟨kept, _⟩ | ⟨_, same, ended | ⟨observed, existing, stated⟩⟩
    · cases kept
    · cases same
      exact Option.some.inj (ended.symm.trans ends)
    · exact absurd stated (leased_untimed existing)
  refine ⟨schedule, desired, fun id moment stated => ?_, looked "c1", looked "c2", timed⟩
  rw [timed id moment stated]
  exact plain

theorem leased_recalled :
    ∃ schedule, leased.desiredCertificates ⟨1772366400, 5⟩ ⟨3600 * Span.billion⟩ = .ok schedule ∧
      schedule.get? "c1" = some none ∧ schedule.get? "c2" = some (some ⟨1772370000, 5⟩) ∧
      ∃ spec, leased.spec "old" "shop" ⟨1772366400, 5⟩ ⟨3600 * Span.billion⟩ = .ok spec ∧
        ∀ stack : Stack, stack.tags = spec.tags →
          ∃ observed, ObservedStack.ofStack stack = .ok observed ∧
            leased.Recalled schedule observed := by
  have ends : (⟨1772366400, 5⟩ : Instant).plus? ⟨3600 * Span.billion⟩ = some ⟨1772370000, 5⟩ := by
    decide +kernel
  obtain ⟨schedule, desired, plain, used, unused, _⟩ :=
    leased_desired ends ⟨by decide +kernel, by decide +kernel⟩
  exact ⟨schedule, desired, used, unused,
    spec_recalled leased "old" "shop" _ _ schedule leased_recordable desired plain⟩

end IngressControl.Descriptor
