import IngressControl.Proofs.Pass.Continuity
import IngressControl.Proofs.Pass.Delivery
/-!
Which addresses a pass reports, and what stands behind them.

An address is written only for an endpoint placed on the stack that has it, as the stack was listed
at the start of the pass. What the same pass does to that stack leaves it there, and leaves on it
the certificates of the endpoint: either they were there, or the pass asks for them.
-/

namespace IngressControl

theorem Tag.certificate_ne {key : String} (other : Text.startsWith certificateStart key = false)
    (id : CertificateId) : certificateStart ++ id ≠ key := by
  rintro rfl
  rw [Text.startsWith_append] at other
  cases other

namespace Descriptor

theorem get?_tagsFor_certificate (descriptor : Descriptor) (cluster : String) (schedule : Schedule)
    (id : CertificateId) : (descriptor.tagsFor cluster schedule).get? (Tag.certificateStart ++ id)
      = (schedule.get? id).map Tags.removalText := by
  rw [tagsFor, Tags.setAlarmHash, Tags.get?_put_of_ne _ (Tag.certificate_ne (by decide) id),
    Tags.get?_setCertificates_own]

variable {descriptor : Descriptor} {now : Instant} {grace : Span} {id : CertificateId}

theorem spec_keeps {name : StackName} {cluster : String} {spec : StackSpec}
    (requested : descriptor.spec name cluster now grace = .ok spec)
    (used : descriptor.certificates.contains id = true) :
    spec.tags.get? (Tag.certificateStart ++ id) = some Tag.keepIndefinitely := by
  obtain ⟨schedule, desired, same⟩ := Attempt.bind_eq_ok_iff.mp requested
  cases same
  rw [get?_tagsFor_certificate, desiredCertificates_used desired used]
  rfl

theorem drift_of_plan {existing : ObservedStack} {action : DesiredAction}
    (planned : descriptor.plan now grace = .ok action) (old : descriptor.existing = some existing)
    (compared : action ≠ .failed ∧ action ≠ .wait) :
    ∃ parts, descriptor.drift now grace = .ok parts ∧
      action = if parts.isEmpty then .inSync else .update parts := by
  rw [plan, old] at planned
  simp only at planned
  split at planned
  · exact absurd (Except.ok.inj planned).symm compared.1
  · split at planned
    · exact absurd (Except.ok.inj planned).symm compared.2
    · obtain ⟨parts, drifted, same⟩ := Attempt.map_eq_ok_iff.mp planned
      exact ⟨parts, drifted, same.symm⟩

theorem keeps_of_inSync {existing : ObservedStack}
    (planned : descriptor.plan now grace = .ok .inSync) (old : descriptor.existing = some existing)
    (reflects : existing.Reflects existing.stack)
    (used : descriptor.certificates.contains id = true) :
    existing.stack.tags.get? (Tag.certificateStart ++ id) = some Tag.keepIndefinitely := by
  have quiet : descriptor.drift now grace = .ok [] := by
    obtain ⟨parts, drifted, same⟩ := drift_of_plan planned old ⟨nofun, nofun⟩
    cases parts with
    | nil => exact drifted
    | cons part rest => cases same
  rw [drift, old] at quiet
  obtain ⟨schedule, desired, none⟩ := Attempt.map_eq_ok_iff.mp quiet
  have same : existing.certificates = schedule := by
    by_contra differs
    simp [driftFrom, driftIf, differs] at none
  have kept := desiredCertificates_used desired used
  rw [← same] at kept
  obtain ⟨value, tagged, read⟩ := Tags.certificates_stated reflects.certificates kept
  rw [tagged, Tags.readRemoval_eq_none read]

theorem plan_of_complete {existing : ObservedStack} {action : DesiredAction}
    (planned : descriptor.plan now grace = .ok action) (old : descriptor.existing = some existing)
    (complete : existing.stack.status.isComplete = true) :
    action = .inSync ∨ ∃ drift, action = .update drift := by
  obtain ⟨unfailed, idle, undeleted⟩ := StackStatus.isComplete_iff.mp complete
  rw [plan, old] at planned
  simp only [unfailed, idle, undeleted, Bool.or_self, Bool.false_eq_true, ↓reduceIte] at planned
  obtain ⟨parts, _, same⟩ := Attempt.map_eq_ok_iff.mp planned
  split at same
  · exact .inl same.symm
  · exact .inr ⟨parts, same.symm⟩

end Descriptor

namespace StackWork

variable {policy : StackPolicy} {now : Instant} {work after : StackWork}

/-- Work that comes to its end has planned for each load balancer and asked for what its plan
needs. -/
theorem reconcileAll_planned {descriptors : List Descriptor} (live : policy.dryRun = false)
    (done : reconcileAll policy now work descriptors = .ok after) {descriptor : Descriptor}
    (member : descriptor ∈ descriptors) :
    ∃ action move fresh, descriptor.plan now policy.grace = .ok action ∧
      descriptor.move policy fresh now action = .ok move ∧
      ∀ request, move = .request request → request ∈ after.requests := by
  induction descriptors generalizing work with
  | nil => cases member
  | cons first rest ih =>
      rw [reconcileAll, each] at done
      cases stepped : reconcile policy now work first with
      | error overflow =>
          rw [stepped] at done
          cases done
      | ok middle =>
          simp only [stepped] at done
          rcases List.mem_cons.mp member with rfl | later
          · obtain ⟨action, planned, stepped⟩ := Attempt.bind_eq_ok_iff.mp stepped
            obtain ⟨move, moved, same⟩ := Attempt.bind_eq_ok_iff.mp stepped
            refine ⟨action, move, _, planned, moved, ?_⟩
            rintro request rfl
            cases same
            have made : request ∈ (work.apply policy descriptor.scope
                (fun changes => changes.countDesired action) (.request request)).requests :=
              apply_requested _ _ live
            have grown : request ∈ (reached (reconcileAll policy now (work.apply policy
                descriptor.scope (fun changes => changes.countDesired action) (.request request))
                rest)).requests := reconcileAll_requests rest made
            rw [reconcileAll, done] at grown
            exact grown
          · exact ih done later

end StackWork

namespace Orchestrator

theorem updateStatus_address {before after : Orchestrator} {id : EndpointId}
    {address : String} (updated : before.updateStatus id address = .ok after) (other : EndpointId) :
    after.reportedAddress? other
      = if other = id then some address else before.reportedAddress? other := by
  obtain ⟨_, _, updated⟩ := Attempt.bind_eq_ok_iff.mp updated
  by_cases unknown : (!before.endpoints.contains id) = true
  · rw [if_pos unknown] at updated
    cases updated
  · rw [if_neg unknown] at updated
    by_cases reported : before.reportedAddress? id = some address
    · rw [if_pos reported] at updated
      cases updated
    · rw [if_neg reported] at updated
      cases updated
      by_cases same : other = id
      · subst same
        rw [if_pos rfl, reportedAddress?, Table.get?_insert_self]
        exact EndpointKind.reportedAddress?_statusDocument ..
      · rw [if_neg same, reportedAddress?, Table.get?_insert_of_ne _ same]
        rfl

end Orchestrator

theorem Stack.address?_eq_some {stack : Stack} {address : String}
    (addressed : stack.address? = some address) :
    stack.status.isComplete = true ∧ stack.dnsName = some address ∧ address ≠ "" := by
  rw [Stack.address?] at addressed
  split at addressed
  · rename_i complete
    obtain ⟨stated, filled⟩ := Option.filter_eq_some_iff.mp addressed
    refine ⟨complete, stated, ?_⟩
    rintro rfl
    cases filled
  · cases addressed

namespace StatusWork

structure Gives (dryRun : Bool) (minAge : Span) (now : Instant) (id : EndpointId) (address : String)
    (descriptor : Descriptor) (existing : ObservedStack) (endpoint : Endpoint) : Prop where
  live : dryRun = false
  old : descriptor.existing = some existing
  addressed : existing.stack.address? = some address
  routable : existing.stack.isRoutable now minAge = true
  placed : endpoint ∈ descriptor.endpoints
  identity : endpoint.id = id
  rewritten : endpoint.skipDnsRewrite = false

variable (dryRun : Bool) (minAge : Span) (now : Instant) (id : EndpointId)

theorem write_address (address : String) (work : StatusWork) (endpoint : Endpoint) :
    (write dryRun address work endpoint).orchestrator.reportedAddress? id
        = work.orchestrator.reportedAddress? id ∨
      endpoint.id = id ∧ dryRun = false ∧ endpoint.skipDnsRewrite = false ∧
        (write dryRun address work endpoint).orchestrator.reportedAddress? id = some address := by
  rw [write]
  by_cases skipped : endpoint.skipDnsRewrite = true
  · rw [if_pos skipped]
    exact .inl rfl
  · rw [if_neg skipped]
    by_cases dry : dryRun = true
    · rw [if_pos dry]
      exact .inl rfl
    · rw [if_neg dry]
      split
      · rename_i updated
        have written := Orchestrator.updateStatus_address updated id
        by_cases same : id = endpoint.id
        · rw [if_pos same] at written
          exact .inr ⟨same.symm, Bool.eq_false_iff.mpr dry, Bool.eq_false_iff.mpr skipped, written⟩
        · rw [if_neg same] at written
          exact .inl written
      · exact .inl rfl
      · exact .inl rfl

theorem writeAll_address {debugs : Bool} {work after : StatusWork} {descriptor : Descriptor}
    (done : writeAll debugs dryRun minAge now work descriptor = .ok after) :
    after.orchestrator.reportedAddress? id = work.orchestrator.reportedAddress? id ∨
      ∃ address existing endpoint, Gives dryRun minAge now id address descriptor existing endpoint ∧
        after.orchestrator.reportedAddress? id = some address := by
  rcases writeAll_cases done with rfl | ⟨existing, address, old, addressed, routable, rfl⟩ | rfl
  · exact .inl rfl
  -- The last endpoint of the identity that is written decides.
  · refine List.foldlRecOn (motive := fun current : StatusWork =>
      current.orchestrator.reportedAddress? id = work.orchestrator.reportedAddress? id ∨
        ∃ address existing endpoint,
          Gives dryRun minAge now id address descriptor existing endpoint ∧
          current.orchestrator.reportedAddress? id = some address) _ _ (.inl rfl) ?_
    intro current before endpoint placed
    rcases write_address dryRun id address current endpoint with
      same | ⟨identity, live, rewritten, written⟩
    · rwa [same]
    · exact .inr ⟨address, existing, endpoint,
        ⟨live, old, addressed, routable, placed, identity, rewritten⟩, written⟩
  · exact .inl rfl

/-- An address changes only to what one of the load balancers gives. -/
theorem reportAll_address (debugs : Bool) (descriptors : List Descriptor) (work : StatusWork) :
    (reached (reportAll debugs dryRun minAge now work descriptors)).orchestrator.reportedAddress? id
        = work.orchestrator.reportedAddress? id ∨
      ∃ descriptor ∈ descriptors, ∃ address existing endpoint,
        Gives dryRun minAge now id address descriptor existing endpoint ∧
        (reached (reportAll debugs dryRun minAge now work descriptors)).orchestrator.reportedAddress?
          id = some address := by
  let Given (current : StatusWork) : Prop :=
    current.orchestrator.reportedAddress? id = work.orchestrator.reportedAddress? id ∨
      ∃ descriptor ∈ descriptors, ∃ address existing endpoint,
        Gives dryRun minAge now id address descriptor existing endpoint ∧
        current.orchestrator.reportedAddress? id = some address
  have kept (current after : StatusWork) (descriptor : Descriptor) (member : descriptor ∈ descriptors)
      (before : Given current)
      (done : writeAll debugs dryRun minAge now current descriptor = .ok after) :
      Given after := by
    rcases writeAll_address dryRun minAge now id done with
      same | ⟨address, existing, endpoint, gives, written⟩
    · simpa only [Given, same] using before
    · exact .inr ⟨descriptor, member, address, existing, endpoint, gives, written⟩
  exact each_induction kept work (.inl rfl)

end StatusWork

namespace Placement

variable {policy : PlacementPolicy} {listed : List Stack} {endpoints : List ResolvedEndpoint}
  {alarms : Option AlarmSet} {now : Instant}

def Furnished (endpoints : List ResolvedEndpoint) (descriptor : Descriptor) : Prop :=
  ∀ endpoint, descriptor.Serves endpoint → ∃ resolved ∈ endpoints, resolved.endpoint = endpoint ∧
    ∀ id, resolved.certificates.contains id = true → descriptor.certificates.contains id = true

theorem furnished_add {descriptor : Descriptor} {resolved : ResolvedEndpoint}
    (member : resolved ∈ endpoints) (furnished : Furnished endpoints descriptor) :
    Furnished endpoints (descriptor.add resolved.endpoint resolved.certificates) := by
  intro endpoint served
  rcases Descriptor.serves_add served with old | rfl
  · obtain ⟨other, present, same, held⟩ := furnished endpoint old
    exact ⟨other, present, same, fun id wanted =>
      Descriptor.contains_enterAll.mpr (.inr (held id wanted))⟩
  · exact ⟨resolved, member, rfl, fun id wanted =>
      Descriptor.contains_enterAll.mpr (.inl (Table.mem_keys_iff.mpr wanted))⟩

theorem furnished_of_unused {descriptor : Descriptor} (unused : descriptor.certificates = {}) :
    Furnished endpoints descriptor :=
  fun endpoint served => absurd served (Descriptor.not_serves_of_unused unused endpoint)

theorem ofStacks_furnished :
    ∀ descriptor ∈ (ofStacks policy listed endpoints alarms now).descriptors,
      Furnished endpoints descriptor := by
  have sorted : ∀ descriptor ∈ (ofStacks policy listed endpoints alarms now).descriptors,
      Furnished (byIdentity endpoints) descriptor := by
    apply descriptor_induction
    · intro descriptor seed
      obtain ⟨observed, _, rfl⟩ := mem_seeded.mp seed
      exact furnished_of_unused rfl
    · intro descriptor resolved member furnished _ _
      exact furnished_add member furnished
    · intro resolved member _
      exact furnished_add member (furnished_of_unused (fresh_certificates ..))
  intro descriptor placed endpoint served
  obtain ⟨resolved, member, held⟩ := sorted descriptor placed endpoint served
  exact ⟨resolved, mem_byIdentity.mp member, held⟩

/-- What the work leaves of the stack of a load balancer with endpoints: it continues, with the tags
that an update asks for or with its own. -/
theorem own_kept {stackPolicy : StackPolicy} {start : Cloud} {work : StackWork}
    (distinct : (listed.map Stack.name).Nodup) {descriptor : Descriptor} {existing : ObservedStack}
    (placed : descriptor ∈ (ofStacks policy listed endpoints alarms now).descriptors)
    (filled : descriptor.hasEndpoints = true) (old : descriptor.existing = some existing)
    (present : start.provisioned.get? existing.name = some existing.stack)
    (founded : work.Founded stackPolicy
      ((ofStacks policy listed endpoints alarms now).Asks stackPolicy now) start) :
    ∃ later, work.cloud.provisioned.get? existing.name = some later ∧
      Cloud.Continues existing.stack later ∧
      ((∃ spec, descriptor.spec existing.name stackPolicy.cluster now stackPolicy.grace = .ok spec ∧
          Cloud.Resembles later.tags spec.tags) ∨
        (∀ spec, .update spec ∈ work.granted → spec.name ≠ existing.name) ∧
          Cloud.Resembles later.tags existing.stack.tags) := by
  have undeleted : .delete existing.name ∉ work.granted := by
    intro deleted
    rcases asks_own distinct placed filled old (founded.asked _ deleted) rfl with
      ⟨_, same⟩ | ⟨_, same, _⟩ <;> cases same
  obtain ⟨later, found, continues, written⟩ :=
    Cloud.performs_kept founded.performed present undeleted
  refine ⟨later, found, continues, written.imp_left ?_⟩
  rintro ⟨spec, granted, called, resembles⟩
  rcases asks_own distinct placed filled old (founded.asked _ granted) called with
    ⟨_, same⟩ | ⟨_, same, requested⟩
  · cases same
  · cases same
    exact ⟨spec, requested, resembles⟩

theorem own_keeps {stackPolicy : StackPolicy} {start : Cloud} {work : StackWork}
    (distinct : (listed.map Stack.name).Nodup) {descriptor : Descriptor} {existing : ObservedStack}
    (placed : descriptor ∈ (ofStacks policy listed endpoints alarms now).descriptors)
    (filled : descriptor.hasEndpoints = true) (old : descriptor.existing = some existing)
    (reflects : existing.Reflects existing.stack)
    (complete : existing.stack.status.isComplete = true)
    (present : start.provisioned.get? existing.name = some existing.stack)
    (founded : work.Founded stackPolicy
      ((ofStacks policy listed endpoints alarms now).Asks stackPolicy now) start)
    {action : DesiredAction} {move : Move} {fresh : StackName}
    (planned : descriptor.plan now stackPolicy.grace = .ok action)
    (moved : descriptor.move stackPolicy fresh now action = .ok move)
    (updated : ∀ spec, move = .request (.update spec) → .update spec ∈ work.granted) :
    ∃ later, work.cloud.provisioned.get? existing.name = some later ∧
      ∀ id, descriptor.certificates.contains id = true →
        later.tags.get? (Tag.certificateStart ++ id) = some Tag.keepIndefinitely := by
  obtain ⟨later, found, _, written⟩ := own_kept distinct placed filled old present founded
  refine ⟨later, found, fun id used => ?_⟩
  have other : Tag.certificateStart ++ id ≠ Tag.deletionScheduled :=
    Tag.certificate_ne (by decide) id
  rcases written with ⟨spec, requested, resembles⟩ | ⟨untouched, resembles⟩
  · rw [resembles _ other]
    exact Descriptor.spec_keeps requested used
  · rw [resembles _ other]
    rcases Descriptor.plan_of_complete planned old complete with rfl | ⟨drift, rfl⟩
    · exact Descriptor.keeps_of_inSync planned old reflects used
    -- An update that was asked for has been granted, so the stack has not gone untouched.
    · rw [Descriptor.move, old] at moved
      obtain ⟨spec, requested, same⟩ := Attempt.bind_eq_ok_iff.mp moved
      cases same
      exact absurd (Descriptor.spec_name requested) (untouched spec (updated spec rfl))

end Placement

namespace Controller

variable {controller : Controller} {circumstances : Circumstances} {world : World}

/-- What stands behind an address that a pass reports for an endpoint: the stack has it, was found
complete and is old enough, and the endpoint, placed on it, lets its address be rewritten. Where no
update fails, the stack is still there afterwards and keeps all certificates of the endpoint. -/
structure Warrants (controller : Controller) (circumstances : Circumstances) (world : World)
    (endpoint : Endpoint) (existing : ObservedStack) (address : String) : Prop where
  placed : ∃ descriptor ∈ (controller.pass circumstances world).placement.descriptors,
    descriptor.existing = some existing ∧ endpoint ∈ descriptor.endpoints
  found : world.cloud.provisioned.get? existing.name = some existing.stack
  listed : existing.stack.IsOf controller.settings.clusterId
  complete : existing.stack.status.isComplete = true
  addressed : existing.stack.dnsName = some address
  filled : address ≠ ""
  aged : controller.minAge ≤ existing.stack.age circumstances.now
  rewritten : endpoint.skipDnsRewrite = false
  served : (∀ spec, .update spec ∈ (controller.pass circumstances world).requests →
      .update spec ∈ (controller.pass circumstances world).granted) →
    ∃ stack, (controller.pass circumstances world).world.cloud.provisioned.get? existing.name
        = some stack ∧
      ∀ id, endpoint.Wants circumstances.snapshot controller.settings.clusterLocalDomain
        circumstances.now id →
          stack.tags.get? (Tag.certificateStart ++ id) = some Tag.keepIndefinitely

theorem used_of_wants {endpoints : List Endpoint} {orchestrator : Orchestrator}
    {resolution : Resolution} {listed : List Stack} {policy : PlacementPolicy}
    {alarms : Option AlarmSet}
    (prepared : Prepared controller circumstances world endpoints orchestrator resolution listed)
    {descriptor : Descriptor} {endpoint : Endpoint} {id : CertificateId}
    (placed : descriptor ∈ (Placement.ofStacks policy listed resolution.resolved alarms
      circumstances.now).descriptors) (member : endpoint ∈ descriptor.endpoints)
    (wants : endpoint.Wants circumstances.snapshot controller.settings.clusterLocalDomain
      circumstances.now id) : descriptor.certificates.contains id = true := by
  obtain ⟨resolved, handed, rfl, held⟩ := Placement.ofStacks_furnished descriptor placed endpoint
    (Descriptor.serves_of_mem_endpoints member)
  have covers := Resolution.ofEndpoints_covers prepared.resolved
  exact held id ((covers.certified resolved handed id).mpr wants)

/-- The reported address of an endpoint changes only to one that the pass warrants. -/
theorem pass_reports (named : world.cloud.Named) {id : EndpointId}
    (changed : (controller.pass circumstances world).world.orchestrator.reportedAddress? id
      ≠ world.orchestrator.reportedAddress? id) :
    ∃ endpoint existing address, endpoint.id = id ∧
      (controller.pass circumstances world).world.orchestrator.reportedAddress? id = some address ∧
      Warrants controller circumstances world endpoint existing address := by
  have unchanged {orchestrator : Orchestrator}
      (same : orchestrator.statuses = world.orchestrator.statuses) :
      orchestrator.reportedAddress? id = world.orchestrator.reportedAddress? id := by
    rw [Orchestrator.reportedAddress?, Orchestrator.reportedAddress?, same]
  rcases controller.pass_stages circumstances world with
    ⟨_, _, _, _, same⟩ | ⟨endpoints, orchestrator, resolution, listed, prepared, placing, acts⟩
  · exact absurd (unchanged same) changed
  · have before := unchanged (Orchestrator.list_statuses prepared.endpoints_listed)
    obtain ⟨work, founded, _, requests, granted, cloud⟩ := founded_of_acts acts
    have provisioned := provisioned_of_acts cloud
    rcases orchestrator_of_acts acts with same | ⟨reconciled, done, made, reported⟩
    · rw [same] at changed
      exact absurd before changed
    rw [reported] at changed ⊢
    rcases StatusWork.reportAll_address controller.settings.dryRun controller.minAge
      circumstances.now id circumstances.debugs (controller.pass circumstances world).placement.desired
      { orchestrator } with same | ⟨descriptor, wanted, address, existing, endpoint, gives, written⟩
    · exact absurd (same.trans before) changed
    · refine ⟨endpoint, existing, address, gives.identity, written, ?_⟩
      obtain ⟨placed, filled⟩ := List.mem_filter.mp wanted
      obtain ⟨action, move, fresh, planned, moved, asked⟩ :=
        StackWork.reconcileAll_planned gives.live done wanted
      have placed' := placed
      rw [placing] at placed' founded
      obtain ⟨reflects, ours, found⟩ :=
        found_of_listed named prepared.stacks_listed placed' gives.old
      obtain ⟨complete, stated, nonempty⟩ := Stack.address?_eq_some gives.addressed
      refine ⟨⟨descriptor, placed, gives.old, gives.placed⟩, found, ours, complete, stated,
        nonempty, by simpa [Stack.isRoutable] using gives.routable, gives.rewritten,
        fun updated => ?_⟩
      have distinct := Cloud.listStacks_names_nodup named prepared.stacks_listed
      have updated (spec : StackSpec) (same : move = .request (.update spec)) :
          .update spec ∈ work.granted := granted ▸ updated spec (made _ (asked _ same))
      obtain ⟨later, found', keeps⟩ := Placement.own_keeps distinct placed' filled gives.old
        reflects complete found founded planned moved updated
      exact ⟨later, by rw [provisioned, found'], fun id wants =>
        keeps id (used_of_wants prepared placed' gives.placed wants)⟩

def opened : World := (steady.pass noon market).world

def soon : Circumstances := { noon with now := ⟨1772367000, 0⟩ }

theorem opened_reports :
    opened.cloud.Named ∧
      (steady.pass soon opened).world.orchestrator.reportedAddress? ⟨.ingress, "default", "web"⟩
        ≠ opened.orchestrator.reportedAddress? ⟨.ingress, "default", "web"⟩ ∧
      ∃ endpoint existing address, endpoint.id = ⟨.ingress, "default", "web"⟩ ∧
        (steady.pass soon opened).world.orchestrator.reportedAddress? ⟨.ingress, "default", "web"⟩
          = some address ∧ Warrants steady soon opened endpoint existing address := by
  have named : opened.cloud.Named := pass_named fun name stack found => nomatch found
  have changed : (steady.pass soon opened).world.orchestrator.reportedAddress?
      ⟨.ingress, "default", "web"⟩
        ≠ opened.orchestrator.reportedAddress? ⟨.ingress, "default", "web"⟩ := by decide +kernel
  exact ⟨named, changed, pass_reports named changed⟩

end Controller

end IngressControl
