import IngressControl.Proofs.Pass.Resolution
import IngressControl.Proofs.Pass.Stages
import IngressControl.Proofs.Placement.Soundness
/-!
No endpoint gets lost in a pass.

Resolution hands an endpoint on or reports it, placement puts it on one load balancer or reports
it, and whatever was reported is in the report at the end. There is no report when a time
cannot be represented: the pass is broken off then, and its endpoints are taken up again by the
next.
-/

namespace IngressControl

/-- The endpoint is on exactly one load balancer. -/
def Placement.Holds (placement : Placement) (endpoint : Endpoint) : Prop :=
  ∃ descriptor, (placement.descriptors.filter fun descriptor =>
    decide (endpoint ∈ descriptor.endpoints)) = [descriptor]

def Report.Mentions (report : Report) (endpoint : Endpoint) : Prop :=
  ∃ problem ∈ report.problems, problem.scope = "endpoint " ++ endpoint.id.text

theorem Report.mentions_of_mem {report : Report} {endpoint : Endpoint} {failure : Failure}
    (reported : Problem.ofEndpoint endpoint.id.text failure ∈ report.problems) :
    report.Mentions endpoint := ⟨_, reported, rfl⟩

namespace Placement

variable {endpoints : List ResolvedEndpoint} {placement : Placement}

theorem holds_of_accommodates
    (distinct : (endpoints.map fun resolved => resolved.endpoint.id).Nodup)
    (accounts : Accounts endpoints placement) {descriptor : Descriptor}
    (placed : descriptor ∈ placement.descriptors) {resolved : ResolvedEndpoint}
    (accommodates : Accommodates resolved descriptor)
    (furnished : resolved.certificates.isEmpty = false) : placement.Holds resolved.endpoint := by
  obtain ⟨id, present⟩ := Table.isEmpty_eq_false_iff.mp furnished
  have served : descriptor.Serves resolved.endpoint := ⟨id, (accommodates id).mpr present⟩
  have listed : resolved.endpoint ∈ descriptor.endpoints :=
    (Descriptor.mem_endpoints_iff_serves (fun _ _ => serves_unique distinct accounts placed)
      resolved.endpoint).mpr served
  let chosen := placement.descriptors.filter fun descriptor =>
    decide (resolved.endpoint ∈ descriptor.endpoints)
  have here : descriptor ∈ chosen := List.mem_filter.mpr ⟨placed, by simpa using listed⟩
  -- Load balancers have no identity in common, so a second one cannot list the endpoint.
  have once : chosen.length ≤ 1 := by
    apply filter_length_le_one
    refine accounts.apart.imp ?_
    rintro first second separate ⟨early, late⟩
    rw [decide_eq_true_eq] at early late
    exact separate _ _ (Descriptor.serves_of_mem_endpoints early)
      (Descriptor.serves_of_mem_endpoints late) rfl
  refine ⟨descriptor, ?_⟩
  change chosen = [descriptor]
  cases found : chosen with
  | nil => simp [found] at here
  | cons first rest =>
      rw [found] at here once
      have rest_nil : rest = [] := List.eq_nil_of_length_eq_zero (by simpa using once)
      subst rest_nil
      rw [List.mem_singleton.mp here]

end Placement

namespace Controller

variable {controller : Controller} {circumstances : Circumstances} {world : World}
  {endpoints : List Endpoint} {orchestrator : Orchestrator} {listed : List Stack}

structure Delivers (controller : Controller) (circumstances : Circumstances)
    (endpoints : List Endpoint) (placement : Placement) (report : Report) : Prop where
  settled : ∀ endpoint ∈ endpoints, placement.Holds endpoint ∨ report.Mentions endpoint
  certified : ∀ endpoint ∈ endpoints, ∀ descriptor ∈ placement.descriptors,
    endpoint ∈ descriptor.endpoints → ∀ id, descriptor.Enters id endpoint ↔
      endpoint.Wants circumstances.snapshot controller.settings.clusterLocalDomain
        circumstances.now id
  missed : (endpoints.flatMap (Endpoint.misses circumstances.snapshot
    controller.settings.clusterLocalDomain circumstances.now)).Sublist report.problems

/-- Some time that the pass may need lies outside the representable range: the last week of a
certificate, the end of the grace period, or how long an address is held back that a debug message
tells of. -/
def Undatable (controller : Controller) (circumstances : Circumstances) (placement : Placement) :
    Prop :=
  (∃ certificate ∈ circumstances.snapshot, ¬ certificate.Datable) ∨
    circumstances.now.plus? controller.grace = none ∨
    controller.Falters circumstances placement

theorem pass_ends (calm : world.orchestrator.crash = none)
    (endpoints_listed : world.orchestrator.list circumstances.files = .ok (endpoints, orchestrator)) :
    (∃ report, (controller.pass circumstances world).outcome = .ok report) ∨
      (∃ overflow, (controller.pass circumstances world).outcome = .error (.overflow overflow)) ∧
        Undatable controller circumstances (controller.pass circumstances world).placement := by
  simp only [pass, calm, endpoints_listed, process]
  cases resolving : Resolution.ofEndpoints circumstances.snapshot
      controller.settings.clusterLocalDomain circumstances.now {} endpoints with
  | error overflow =>
      refine .inr ⟨⟨overflow, rfl⟩, .inl ?_⟩
      by_contra datable
      have all : ∀ certificate ∈ circumstances.snapshot, certificate.Datable := by
        simpa using datable
      obtain ⟨resolution, done⟩ := Resolution.ofEndpoints_ok all {} endpoints
      rw [resolving] at done
      cases done
  | ok resolution =>
      cases stacks_listed : world.cloud.listStacks controller.settings.clusterId with
      | error refusal => exact .inl ⟨_, rfl⟩
      | ok listed =>
          simp only
          generalize acted : controller.act circumstances _ _ listed _ = result
          cases outcome : result.outcome with
          | ok final => exact .inl ⟨final, rfl⟩
          | error fault =>
              rw [← acted] at outcome
              obtain ⟨overflow, rfl, cause⟩ := act_error outcome
              exact .inr ⟨⟨overflow, rfl⟩, .inr cause⟩

theorem delivers_of_covers {resolution : Resolution} {report final : Report}
    {alarms : Option AlarmSet}
    (distinct : (endpoints.map Endpoint.id).Nodup)
    (covers : Resolution.Covers circumstances.snapshot controller.settings.clusterLocalDomain
      circumstances.now endpoints resolution)
    (resolving : resolution.problems <+: report.problems)
    (reported : report.problems ++ (Placement.ofStacks controller.placementPolicy listed
      resolution.resolved alarms circumstances.now).problems <+: final.problems) :
    Delivers controller circumstances endpoints (Placement.ofStacks controller.placementPolicy
      listed resolution.resolved alarms circumstances.now) final := by
  have handed : (resolution.resolved.map fun resolved => resolved.endpoint.id).Nodup := by
    have once := (covers.handed.map Endpoint.id).nodup distinct
    rwa [List.map_map] at once
  have sorted := Placement.byIdentity_ids_nodup handed
  have accounts : Placement.Accounts (Placement.byIdentity resolution.resolved)
      (Placement.ofStacks controller.placementPolicy listed resolution.resolved alarms
        circumstances.now) := Placement.ofStacks_accounts handed
  -- Problems are only ever added, so those of the resolution are in the report at the end.
  have kept := (resolving.trans (List.prefix_append _ _)).trans reported
  refine ⟨?_, ?_, covers.missed.trans kept.sublist⟩
  · intro endpoint member
    rcases covers.settled endpoint member with ⟨resolved, present, rfl⟩ | ⟨failure, found⟩
    · rcases accounts.settled resolved (Placement.mem_byIdentity.mpr present) with
        ⟨descriptor, placed, accommodates⟩ | ⟨failure, found⟩
      · exact .inl (Placement.holds_of_accommodates sorted accounts placed accommodates
          (covers.furnished resolved present))
      · exact .inr (Report.mentions_of_mem (reported.subset (List.mem_append_right _ found)))
    · exact .inr (Report.mentions_of_mem (kept.subset found))
  · intro endpoint _ descriptor placed listed id
    have served := Descriptor.serves_of_mem_endpoints listed
    obtain ⟨resolved, present, rfl, accommodates⟩ := accounts.known descriptor placed endpoint served
    rw [accommodates id]
    exact covers.certified resolved (Placement.mem_byIdentity.mp present) id

theorem delivers_of_reported {report : Report} (calm : world.orchestrator.crash = none)
    (endpoints_listed : world.orchestrator.list circumstances.files = .ok (endpoints, orchestrator))
    (stacks_listed : world.cloud.listStacks controller.settings.clusterId = .ok listed)
    (distinct : (endpoints.map Endpoint.id).Nodup)
    (done : (controller.pass circumstances world).outcome = .ok report) :
    Delivers controller circumstances endpoints (controller.pass circumstances world).placement
      report := by
  simp only [pass, calm, endpoints_listed, process] at done ⊢
  cases resolving : Resolution.ofEndpoints circumstances.snapshot
      controller.settings.clusterLocalDomain circumstances.now {} endpoints with
  | error overflow =>
      rw [resolving] at done
      cases done
  | ok resolution =>
      simp only [resolving, stacks_listed] at done ⊢
      exact delivers_of_covers distinct (Resolution.ofEndpoints_covers resolving)
        (List.prefix_append _ _) (act_problems done)

/-- A pass with both listings at hand delivers all its endpoints, or ends early for a time that
cannot be represented. -/
theorem pass_delivers (controller : Controller) (circumstances : Circumstances) (world : World)
    (endpoints : List Endpoint) (orchestrator : Orchestrator) (listed : List Stack)
    (calm : world.orchestrator.crash = none)
    (endpoints_listed : world.orchestrator.list circumstances.files = .ok (endpoints, orchestrator))
    (stacks_listed : world.cloud.listStacks controller.settings.clusterId = .ok listed)
    (distinct : (endpoints.map Endpoint.id).Nodup) :
    (∃ report, (controller.pass circumstances world).outcome = .ok report ∧
      Delivers controller circumstances endpoints
        (controller.pass circumstances world).placement report) ∨
    (∃ overflow, (controller.pass circumstances world).outcome = .error (.overflow overflow)) ∧
      Undatable controller circumstances (controller.pass circumstances world).placement := by
  rcases pass_ends calm endpoints_listed with ⟨report, done⟩ | stopped
  · exact .inl ⟨report, done,
      delivers_of_reported calm endpoints_listed stacks_listed distinct done⟩
  · exact .inr stopped

def market : World where
  orchestrator := ({} : Orchestrator).upsert
      { id := ⟨.ingress, "default", "web"⟩, hostnames := ["web.example.org"] }
    |>.upsert { id := ⟨.ingress, "default", "api"⟩, hostnames := ["api.example.net"] }

def noon : Circumstances where
  snapshot := [⟨"wide", ["*.example.org"], ⟨0, 0⟩, ⟨4000000000, 0⟩⟩]
  files := {}
  now := ⟨1772366400, 0⟩
  createdAt := ⟨1772366400, 0⟩

def steady : Controller where
  settings := { clusterId := "shop" }
  grace := ⟨3600 * Span.billion⟩
  minAge := ⟨360 * Span.billion⟩
  freshName := numberedName "shop"

theorem market_delivers :
    Controller.ofSettings? steady.settings = some steady ∧
      (∃ report, (steady.pass noon market).outcome = .ok report ∧
        Delivers steady noon market.orchestrator.current (steady.pass noon market).placement
          report) := by
  refine ⟨rfl, ?_⟩
  have delivered := pass_delivers steady noon market market.orchestrator.current
    market.orchestrator [] rfl rfl rfl (by decide +kernel)
  rcases delivered with delivered | ⟨⟨overflow, failed⟩, _⟩
  · exact delivered
  · have finished : (steady.pass noon market).outcome.toOption.isSome = true := by decide +kernel
    rw [failed] at finished
    cases finished

def deserted : World where
  orchestrator := ({} : Orchestrator).upsert
    { id := ⟨.ingress, "default", "web"⟩, hostnames := ["web.example.org"] }
  cloud := ({} : Cloud).insertStack
    { name := "old", status := .createComplete, dnsName := none, targetGroup := none
      createdAt := ⟨1767225600, 0⟩
      tags := (Tags.ownedBy "shop").insert Tag.scheme "internal" }

def endless : Controller :=
  { steady with
    settings := { clusterId := "shop", deletionGraceSeconds := 9223372036854775 }
    grace := ⟨9223372036854775 * Span.billion⟩ }

/-- With the longest grace period that is a span the pass ends early, and its endpoint is neither
placed nor reported. -/
theorem deserted_endpoint_lost :
    Controller.ofSettings? endless.settings = some endless ∧
      deserted.orchestrator.crash = none ∧
      deserted.orchestrator.list noon.files
        = .ok (deserted.orchestrator.current, deserted.orchestrator) ∧
      (deserted.cloud.listStacks endless.settings.clusterId).toOption
        = some deserted.cloud.provisioned.values ∧
      (deserted.orchestrator.current.map Endpoint.id).Nodup ∧
      ¬ ∀ endpoint ∈ deserted.orchestrator.current,
        (endless.pass { noon with snapshot := [] } deserted).placement.Holds endpoint ∨
          ∃ report, (endless.pass { noon with snapshot := [] } deserted).outcome = .ok report ∧
            report.Mentions endpoint := by
  have unfinished : (endless.pass { noon with snapshot := [] } deserted).outcome.toOption = none := by
    decide +kernel
  have unplaced : ∀ endpoint ∈ deserted.orchestrator.current,
      ((endless.pass { noon with snapshot := [] } deserted).placement.descriptors.filter
        fun descriptor => decide (endpoint ∈ descriptor.endpoints)) = [] := by decide +kernel
  have listed : deserted.orchestrator.current ≠ [] := by decide +kernel
  obtain ⟨endpoint, member⟩ := List.exists_mem_of_ne_nil _ listed
  refine ⟨rfl, rfl, rfl, by decide +kernel, by decide +kernel, fun all => ?_⟩
  rcases all endpoint member with ⟨descriptor, held⟩ | ⟨report, finished, _⟩
  · rw [unplaced endpoint member] at held
    cases held
  · rw [finished] at unfinished
    cases unfinished

end Controller

end IngressControl
