import IngressControl.Proofs.Pass.Handling
import IngressControl.Proofs.Pass.Reporting
import IngressControl.Proofs.Pass.Steady
import IngressControl.Proofs.Run
/-!
Alarms in a pass that cannot read them.

Alarms that are not known are neither written nor compared: every stack keeps the digest that it has,
whatever else the pass changes about it, and the report says once that they could not be read.
-/

namespace IngressControl

namespace AlarmSet

def Malformed (text : String) : Prop := (Yaml.document? text).bind AlarmSet.ofDocument? = none

theorem ofTexts_error (resource : ConfigResource) {entries : List (String × String)}
    {entry : String × String} (member : entry ∈ entries) (malformed : Malformed entry.2) :
    ∃ failure, ofTexts resource entries = .error failure := by
  induction entries with
  | nil => cases member
  | cons first rest ih =>
      rw [ofTexts]
      cases read : ofText first.2 (place resource first.1) with
      | error failure => exact ⟨failure, rfl⟩
      | ok alarms =>
          rcases List.mem_cons.mp member with rfl | later
          · rw [ofText, malformed] at read
            cases read
          · obtain ⟨failure, failed⟩ := ih later
            exact ⟨failure, by rw [failed]; rfl⟩

end AlarmSet

namespace Descriptor

variable {descriptor : Descriptor} {existing : ObservedStack} {now : Instant} {grace : Span}

/-- Alarms that are not known are no reason for an update, and there is no update without one. -/
theorem plan_update_unknown (unknown : descriptor.alarms = none) {drift : List Drift}
    (planned : descriptor.plan now grace = .ok (.update drift)) :
    drift ≠ [] ∧ .alarms ∉ drift := by
  cases old : descriptor.existing with
  | none =>
      rw [plan, old] at planned
      cases planned
  | some existing =>
      obtain ⟨parts, drifted, same⟩ := drift_of_plan planned old (by simp)
      cases parts with
      | nil => cases same
      | cons part rest =>
          cases same
          rw [Descriptor.drift, old] at drifted
          obtain ⟨wanted, _, same⟩ := Attempt.map_eq_ok_iff.mp drifted
          refine ⟨List.cons_ne_nil _ _, ?_⟩
          rw [← same, driftFrom, unknown]
          simp [driftIf]

theorem spec_unknown (unknown : descriptor.alarms = none) {name : StackName} {cluster : String}
    {spec : StackSpec} (requested : descriptor.spec name cluster now grace = .ok spec) :
    spec.alarms = none ∧
      Tags.alarmHash? spec.tags = descriptor.existing.bind ObservedStack.alarmHash? := by
  obtain ⟨schedule, _, same⟩ := Attempt.bind_eq_ok_iff.mp requested
  cases same
  refine ⟨unknown, ?_⟩
  simp only [alarmHash_tagsFor, desiredAlarmHash, unknown]

end Descriptor

namespace Controller

variable {controller : Controller} {circumstances : Circumstances} {world : World}
  {endpoints : List Endpoint} {orchestrator : Orchestrator} {space name : String}

def alarmScope (space name : String) : String := "alarm config " ++ space ++ "/" ++ name

/-- The resource of the alarms is not known to be missing, and cannot be read. -/
inductive Unreadable (controller : Controller) (orchestrator : Orchestrator)
    (space name : String) : Prop
  | refused {failure : Failure} :
      controller.settings.alarmReference? = some (space, name) →
      orchestrator.getResource space name = .error failure → failure.isNotFound = false →
        Unreadable controller orchestrator space name
  | malformed {resource : ConfigResource} {entry : String × String} :
      controller.settings.alarmReference? = some (space, name) →
      orchestrator.getResource space name = .ok resource → entry ∈ resource.data.entries →
      AlarmSet.Malformed entry.2 → Unreadable controller orchestrator space name

theorem alarms_of_unreadable (unreadable : Unreadable controller orchestrator space name) :
    ∃ failure, controller.alarms orchestrator = (none, [⟨alarmScope space name, failure⟩]) := by
  cases unreadable with
  | @refused failure referred refused present =>
      refine ⟨failure, ?_⟩
      simp only [alarms, referred, refused, present]
      rfl
  | @malformed resource entry referred found member malformed =>
      obtain ⟨failure, failed⟩ := AlarmSet.ofTexts_error resource member malformed
      refine ⟨failure, ?_⟩
      simp only [alarms, referred, found, AlarmSet.ofResource, failed]
      rfl

structure LeavesAlarms (controller : Controller) (circumstances : Circumstances) (world : World)
    (result : PassResult) : Prop where
  kept : ∀ name earlier later, world.cloud.provisioned.get? name = some earlier →
    result.world.cloud.provisioned.get? name = some later →
      Tags.alarmHash? later.tags = Tags.alarmHash? earlier.tags
  planned : ∀ descriptor ∈ result.placement.desired, ∀ drift,
    descriptor.plan circumstances.now controller.grace = .ok (.update drift) →
      drift ≠ [] ∧ .alarms ∉ drift
  driven : ∀ spec, .update spec ∈ result.requests → ∃ descriptor ∈ result.placement.desired,
    descriptor.spec spec.name controller.settings.clusterId circumstances.now controller.grace
      = .ok spec ∧
    ∃ drift, descriptor.plan circumstances.now controller.grace = .ok (.update drift)
  unstated : ∀ spec, .create spec ∈ result.requests ∨ .update spec ∈ result.requests →
    spec.alarms = none

theorem placement_unknown
    (endpoints_listed : world.orchestrator.list circumstances.files = .ok (endpoints, orchestrator))
    (unreadable : Unreadable controller orchestrator space name) :
    ∀ descriptor ∈ (controller.pass circumstances world).placement.descriptors,
      descriptor.alarms = none := by
  rcases controller.pass_stages circumstances world with
    ⟨_, _, _, blank, _⟩ | ⟨_, _, resolution, listed, prepared, placing, _⟩
  · rw [blank]
    exact List.forall_mem_nil _
  · obtain ⟨failure, unknown⟩ := alarms_of_unreadable unreadable
    have same := prepared.endpoints_listed
    rw [endpoints_listed] at same
    cases same
    rw [placing, unknown]
    exact Placement.ofStacks_alarms

theorem alarmHash_kept (named : world.cloud.Named)
    (unknown : ∀ descriptor ∈ (controller.pass circumstances world).placement.descriptors,
      descriptor.alarms = none) {earlier later : Stack}
    (present : world.cloud.provisioned.get? name = some earlier)
    (found : (controller.pass circumstances world).world.cloud.provisioned.get? name = some later) :
    Tags.alarmHash? later.tags = Tags.alarmHash? earlier.tags := by
  rcases pass_stack named found with ⟨absent, _⟩ | ⟨stack, present', _, tagged⟩
  · rw [present] at absent
    cases absent
  · obtain rfl := Option.some.inj (present.symm.trans present')
    rcases tagged with ⟨spec, granted, rfl, resembles⟩ | ⟨_, resembles⟩
    · -- The update states the digest that its load balancer has seen on the stack.
      obtain ⟨descriptor, existing, updates⟩ := pass_update named granted
      obtain rfl := Option.some.inj (present.symm.trans updates.found)
      have hash := (Descriptor.spec_unknown (unknown _ updates.placed) updates.requested).2
      rw [updates.old] at hash
      exact (resembles Tag.alarmHash (by decide)).trans hash
    · exact resembles Tag.alarmHash (by decide)

theorem leavesAlarms_of_unknown (named : world.cloud.Named)
    (unknown : ∀ descriptor ∈ (controller.pass circumstances world).placement.descriptors,
      descriptor.alarms = none) :
    LeavesAlarms controller circumstances world (controller.pass circumstances world) := by
  have wanting {descriptor : Descriptor}
      (wanted : descriptor ∈ (controller.pass circumstances world).placement.desired) :
      descriptor.alarms = none := unknown descriptor (List.mem_filter.mp wanted).1
  have asked := controller.pass_requested circumstances world
  refine ⟨fun _ _ _ => alarmHash_kept named unknown, ?_, ?_, ?_⟩
  · exact fun descriptor wanted drift planned =>
      Descriptor.plan_update_unknown (wanting wanted) planned
  · intro spec made
    rcases asked _ made with ⟨descriptor, wanted, asks⟩ | ⟨_, _, asks⟩
    · cases asks with
      | update planned _ requested =>
          exact ⟨descriptor, wanted, Descriptor.spec_name requested ▸ requested, _, planned⟩
    · cases asks
  · rintro spec (made | made)
    · obtain ⟨descriptor, wanted, _, requested⟩ := Placement.asks_spec (asked _ made) (.inl rfl)
      exact (Descriptor.spec_unknown (wanting wanted) requested).1
    · obtain ⟨descriptor, wanted, _, requested⟩ := Placement.asks_spec (asked _ made) (.inr rfl)
      exact (Descriptor.spec_unknown (wanting wanted) requested).1

/-- Among problems of the other stages the one of the alarms stands alone. -/
theorem alarmScoped_of_beginIn {before after : List Problem} {problem : Problem}
    (first : BeginIn ['e'] before) (last : BeginIn ['e', 's', 'n', 't', 'i'] after)
    (labelled : problem.scope = alarmScope space name) :
    ((before ++ [problem] ++ after).filter fun other => other.scope = alarmScope space name)
      = [problem] := by
  have starts : (alarmScope space name).toList.head? = some 'a' := by
    rw [alarmScope, String.append_assoc, String.append_assoc]
    exact head?_scope (by decide) _
  rw [List.filter_append, List.filter_append, filter_of_beginIn first starts (by decide),
    filter_of_beginIn last starts (by decide)]
  simp [labelled]

theorem pass_reports_alarms (calm : world.orchestrator.crash = none)
    (endpoints_listed : world.orchestrator.list circumstances.files = .ok (endpoints, orchestrator))
    (unreadable : Unreadable controller orchestrator space name) {report : Report}
    (done : (controller.pass circumstances world).outcome = .ok report) :
    ∃ failure, (report.problems.filter fun problem => problem.scope = alarmScope space name)
      = [⟨alarmScope space name, failure⟩] := by
  obtain ⟨failure, unknown⟩ := alarms_of_unreadable unreadable
  refine ⟨failure, ?_⟩
  simp only [pass, calm, endpoints_listed, process, unknown] at done
  cases resolved : Resolution.ofEndpoints circumstances.snapshot
      controller.settings.clusterLocalDomain circumstances.now {} endpoints with
  | error overflow =>
      rw [resolved] at done
      cases done
  | ok resolution =>
      have resolving : BeginIn ['e'] resolution.problems :=
        Resolution.ofEndpoints_beginIn (by exact List.forall_mem_nil _) resolved
      simp only [resolved] at done
      cases stacks_listed : world.cloud.listStacks controller.settings.clusterId with
      | error refusal =>
          rw [stacks_listed] at done
          cases done
          refine alarmScoped_of_beginIn resolving (List.forall_mem_singleton.mpr ?_) rfl
          exact ⟨'s', by simp, (by decide : "stacks".toList.head? = some 's')⟩
      | ok listed =>
          simp only [stacks_listed] at done
          obtain ⟨others, whole, begins⟩ := act_beginIn (Placement.ofStacks_beginIn _ _) done
          rw [whole]
          exact alarmScoped_of_beginIn resolving begins rfl

/-- While its alarms cannot be read, a pass leaves those of the stacks alone and says so once, or ends
early for a time that cannot be represented. -/
theorem pass_leaves_alarms (controller : Controller) (circumstances : Circumstances) (world : World)
    (endpoints : List Endpoint) (orchestrator : Orchestrator) (space name : String)
    (named : world.cloud.Named) (calm : world.orchestrator.crash = none)
    (endpoints_listed : world.orchestrator.list circumstances.files = .ok (endpoints, orchestrator))
    (unreadable : Unreadable controller orchestrator space name) :
    LeavesAlarms controller circumstances world (controller.pass circumstances world) ∧
      ((∃ report failure, (controller.pass circumstances world).outcome = .ok report ∧
          (report.problems.filter fun problem => problem.scope = alarmScope space name)
            = [⟨alarmScope space name, failure⟩]) ∨
        (∃ overflow, (controller.pass circumstances world).outcome = .error (.overflow overflow)) ∧
          Undatable controller circumstances (controller.pass circumstances world).placement) := by
  refine ⟨leavesAlarms_of_unknown named (placement_unknown endpoints_listed unreadable), ?_⟩
  rcases pass_ends calm endpoints_listed with ⟨report, done⟩ | stopped
  · obtain ⟨failure, noted⟩ := pass_reports_alarms calm endpoints_listed unreadable done
    exact .inl ⟨report, failure, done, noted⟩
  · exact .inr stopped

def watched : Controller :=
  { steady with settings := { clusterId := "shop", alarmConfig := some "ops/alarms" } }

/-- A world with a stack that has alarms, for which now there is a text that is no list. The endpoint
needs a certificate that the stack does not carry. -/
def garbled : World where
  orchestrator := ({} : Orchestrator).upsert
      { id := ⟨.ingress, "default", "web"⟩, hostnames := ["web.example.org"] }
    |>.putResource { space := "ops", name := "alarms", data := Table.empty.insert "cpu" "none" }
  cloud := ({} : Cloud).insertStack
    { abandoned with
      tags := (Tags.ownedBy "shop").insert Tag.scheme "internet-facing"
        |>.insert Tag.sslPolicy "ELBSecurityPolicy-2016-08" |>.insert Tag.alarmHash "c0ffee" }

theorem garbled_leaves_alarms :
    Controller.ofSettings? watched.settings = some watched ∧
      Unreadable watched garbled.orchestrator "ops" "alarms" ∧
      (watched.pass noon garbled).granted.map StackRequest.name = ["old"] ∧
      LeavesAlarms watched noon garbled (watched.pass noon garbled) ∧
      ∃ report failure, (watched.pass noon garbled).outcome = .ok report ∧
        (report.problems.filter fun problem => problem.scope = alarmScope "ops" "alarms")
          = [⟨alarmScope "ops" "alarms", failure⟩] := by
  have found : garbled.orchestrator.getResource "ops" "alarms"
      = .ok { space := "ops", name := "alarms", data := Table.empty.insert "cpu" "none" } := by
    decide +kernel
  have malformed : AlarmSet.Malformed "none" := by
    rw [AlarmSet.Malformed]
    decide +kernel
  have member : ("cpu", "none") ∈ (Table.empty.insert "cpu" "none").entries := by decide +kernel
  have unreadable : Unreadable watched garbled.orchestrator "ops" "alarms" :=
    .malformed (by decide +kernel) found member malformed
  obtain ⟨leaves, reported | ⟨⟨overflow, failed⟩, _⟩⟩ := pass_leaves_alarms watched noon garbled
    garbled.orchestrator.current garbled.orchestrator "ops" "alarms"
    (Cloud.insertStack_named Cloud.empty_named _) rfl rfl unreadable
  · exact ⟨rfl, unreadable, by decide +kernel, leaves, reported⟩
  · have finished : (watched.pass noon garbled).outcome.toOption.isSome = true := by decide +kernel
    rw [failed] at finished
    cases finished

def patient : Controller :=
  { endless with settings := { endless.settings with alarmConfig := some "ops/alarms" } }

def muted : World where
  orchestrator := ({} : Orchestrator).fail "get_config_resource"
  cloud := ({} : Cloud).insertStack abandoned

/-- With the longest grace period that is a span the pass ends early, and does not say that the alarms
could not be read. -/
theorem muted_unreported :
    Controller.ofSettings? patient.settings = some patient ∧ muted.cloud.Named ∧
      muted.orchestrator.crash = none ∧
      muted.orchestrator.list noon.files = .ok (muted.orchestrator.current, muted.orchestrator) ∧
      Unreadable patient muted.orchestrator "ops" "alarms" ∧
      ¬ ∃ report failure, (patient.pass noon muted).outcome = .ok report ∧
        (report.problems.filter fun problem => problem.scope = alarmScope "ops" "alarms")
          = [⟨alarmScope "ops" "alarms", failure⟩] := by
  have refused : muted.orchestrator.getResource "ops" "alarms"
      = .error (.orchestrator "get_config_resource failed (injected)") := by decide +kernel
  have unfinished : (patient.pass noon muted).outcome.toOption = none := by decide +kernel
  refine ⟨rfl, Cloud.insertStack_named Cloud.empty_named _, rfl, rfl, ?_, ?_⟩
  · exact .refused (by decide +kernel) refused rfl
  · rintro ⟨report, failure, finished, _⟩
    rw [finished] at unfinished
    cases unfinished

end Controller

end IngressControl
