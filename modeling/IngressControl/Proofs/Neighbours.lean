import Mathlib.Logic.Function.Basic
import IngressControl.Proofs.Pass.Neighbours
/-!
Clusters that take turns on one cloud.

The cloud is common to all, and each cluster keeps its own orchestrator and the count of stacks that
it has asked for. Leaving out all passes of one cluster changes nothing for another: at every moment
its stacks, their registrations and the outcomes of its passes are what they would have been.
-/

namespace IngressControl

structure Tenant where
  orchestrator : Orchestrator := {}
  created : Nat := 0

structure Commons where
  cloud : Cloud := {}
  tenants : String → Tenant := fun _ => {}

structure Visit where
  controller : Controller
  circumstances : Circumstances
  meanwhile : Orchestrator → Orchestrator := id

namespace Visit

def cluster (visit : Visit) : String := visit.controller.settings.clusterId

def world (visit : Visit) (commons : Commons) : World where
  orchestrator := visit.meanwhile (commons.tenants visit.cluster).orchestrator
  cloud := commons.cloud
  created := (commons.tenants visit.cluster).created

def result (visit : Visit) (commons : Commons) : PassResult :=
  visit.controller.pass visit.circumstances (visit.world commons)

def leaves (visit : Visit) (commons : Commons) : Commons :=
  let world := (visit.result commons).world
  { cloud := world.cloud
    tenants := Function.update commons.tenants visit.cluster
      { orchestrator := world.orchestrator, created := world.created } }

end Visit

namespace Commons

def run (commons : Commons) (visits : List Visit) : Commons :=
  visits.foldl (fun commons visit => visit.leaves commons) commons

def outcomes (cluster : String) (commons : Commons) : List Visit → List (Except Fault Report)
  | [] => []
  | visit :: rest =>
      let later := outcomes cluster (visit.leaves commons) rest
      if visit.cluster = cluster then (visit.result commons).outcome :: later else later

structure Alike (cluster : String) (commons commons' : Commons) : Prop where
  cloud : Cloud.AgreeFor cluster commons.cloud commons'.cloud
  tenant : commons.tenants cluster = commons'.tenants cluster

variable {own : String} {visit : Visit} {visits : List Visit} {commons commons' : Commons}

theorem leaves_housed (supplies : visit.controller.Supplies) (housed : commons.cloud.Housed) :
    (visit.leaves commons).cloud.Housed := by
  have here : (visit.world commons).cloud.Housed := housed
  exact Controller.pass_housed supplies here visit.circumstances

theorem leaves_foreign (foreign : visit.cluster ≠ own) (supplies : visit.controller.Supplies)
    (housed : commons.cloud.Housed) : Alike own commons (visit.leaves commons) where
  cloud := by
    have here : (visit.world commons).cloud.Housed := housed
    exact Controller.pass_foreign foreign.symm supplies here visit.circumstances
  tenant := (Function.update_of_ne foreign.symm ..).symm

theorem leaves_own (same : visit.cluster = own) (supplies : visit.controller.Supplies)
    (housed : commons.cloud.Housed) (housed' : commons'.cloud.Housed)
    (alike : Alike own commons commons') :
    (visit.result commons).outcome = (visit.result commons').outcome ∧
      Alike own (visit.leaves commons) (visit.leaves commons') := by
  subst same
  have worlds : World.Alike visit.cluster (visit.world commons) (visit.world commons') := by
    refine ⟨commons'.cloud, ?_, alike.cloud⟩
    rw [Visit.world, Visit.world, alike.tenant]
  have results : PassResult.Alike visit.cluster (visit.result commons) (visit.result commons') :=
    Controller.pass_alike supplies housed housed' visit.circumstances worlds
  obtain ⟨cloud, world, agree⟩ := results.world
  refine ⟨results.outcome, ?_, ?_⟩
  · rw [Visit.leaves, Visit.leaves, world]
    exact agree
  · rw [Visit.leaves, Visit.leaves, world]
    simp only [Function.update_self]

theorem alike_trans {middle : Commons} (left : Alike own commons middle)
    (right : Alike own middle commons') : Alike own commons commons' :=
  ⟨Cloud.agreeFor_trans left.cloud right.cloud, left.tenant.trans right.tenant⟩

theorem alike_symm (alike : Alike own commons commons') : Alike own commons' commons :=
  ⟨Cloud.agreeFor_symm alike.cloud, alike.tenant.symm⟩

/-- Passes of other clusters may be left out of a run. -/
theorem run_alike {keep : Visit → Bool} (kept : ∀ visit, visit.cluster = own → keep visit = true)
    (supplies : ∀ visit ∈ visits, visit.controller.Supplies) (housed : commons.cloud.Housed)
    (housed' : commons'.cloud.Housed) (alike : Alike own commons commons') :
    Alike own (commons.run visits) (commons'.run (visits.filter keep)) ∧
      (commons.run visits).cloud.Housed ∧ (commons'.run (visits.filter keep)).cloud.Housed ∧
      commons.outcomes own visits = commons'.outcomes own (visits.filter keep) := by
  induction visits generalizing commons commons' with
  | nil => exact ⟨alike, housed, housed', rfl⟩
  | cons visit rest ih =>
      obtain ⟨here, behind⟩ := List.forall_mem_cons.mp supplies
      have after := leaves_housed here housed
      by_cases same : visit.cluster = own
      · obtain ⟨outcome, left⟩ := leaves_own same here housed housed' alike
        obtain ⟨ends, first, second, later⟩ := ih behind after (leaves_housed here housed') left
        rw [List.filter_cons_of_pos (kept visit same), outcomes, outcomes, if_pos same, if_pos same]
        exact ⟨ends, first, second, by rw [outcome, later]⟩
      · have left := leaves_foreign same here housed
        rw [outcomes, if_neg same]
        cases taken : keep visit with
        | true =>
            have left' := alike_trans alike (leaves_foreign same here housed')
            rw [List.filter_cons_of_pos taken, outcomes, if_neg same]
            exact ih behind after (leaves_housed here housed')
              (alike_trans (alike_symm left) left')
        | false =>
            rw [List.filter_cons_of_neg (Bool.eq_false_iff.mp taken)]
            exact ih behind after housed' (alike_trans (alike_symm left) alike)

/-- The clouds have the same stacks of the cluster, with the same requests applied to them and the
same registrations in their target groups. -/
structure SameStacks (cluster : String) (first second : Cloud) : Prop where
  listed : first.ofCluster cluster = second.ofCluster cluster
  applied : ∀ stack ∈ first.ofCluster cluster,
    first.applied.get? stack.name = second.applied.get? stack.name
  targets : ∀ stack ∈ first.ofCluster cluster, ∀ group, stack.targetGroup = some group →
    first.targets.get? group = second.targets.get? group

theorem sameStacks_of_agreeFor {first second : Cloud} (agree : Cloud.AgreeFor own first second)
    (housed : first.Housed) (housed' : second.Housed) : SameStacks own first second := by
  have belongs {stack : Stack} (member : stack ∈ first.ofCluster own) : stack.BelongsTo own := by
    obtain ⟨⟨name, found⟩, listed⟩ := Cloud.mem_ofCluster.mp member
    obtain ⟨rfl, routed, _⟩ := housed name stack found
    exact ⟨Cloud.supplied_of_isOf (housed _ stack found) listed, routed⟩
  refine ⟨Cloud.ofCluster_congr agree housed housed', ?_, ?_⟩
  · intro stack member
    exact agree.applied stack.name (belongs member).supplied
  · intro stack member group holds
    obtain rfl := Option.some.inj (holds.symm.trans (belongs member).routed)
    exact agree.targets _ ⟨stack.name, (belongs member).supplied, rfl⟩

/-- Whatever a cluster does in a cloud that starts without stacks, no other cluster can tell its
passes from their absence. -/
theorem run_undisturbed (commons : Commons) (visits : List Visit) (own foreign : String)
    (distinct : own ≠ foreign) (empty : commons.cloud.provisioned = {})
    (supplies : ∀ visit ∈ visits, visit.controller.Supplies) :
    SameStacks own (commons.run visits).cloud
        (commons.run (visits.filter fun visit => visit.cluster ≠ foreign)).cloud ∧
      commons.outcomes own visits
        = commons.outcomes own (visits.filter fun visit => visit.cluster ≠ foreign) := by
  have kept (visit : Visit) (same : visit.cluster = own) :
      decide (visit.cluster ≠ foreign) = true := decide_eq_true (same ▸ distinct)
  have housed := Cloud.housed_of_empty empty
  obtain ⟨alike, first, second, outcomes⟩ :=
    run_alike kept supplies housed housed ⟨Cloud.agreeFor_refl own commons.cloud, rfl⟩
  exact ⟨sameStacks_of_agreeFor alike.cloud first second, outcomes⟩

open Controller

/-- A cluster that is called like a stack of another. -/
def branch : Controller :=
  { steady with
    settings := { clusterId := "shop-00000001" }
    freshName := numberedName "shop-00000001" }

def plaza : Commons where
  cloud := (({} : Cloud).setInstances "shop" ["i-1"]).setInstances "shop-00000001" ["i-2"]
  tenants _ := { orchestrator := market.orchestrator }

def turns : List Visit :=
  [⟨steady, noon, id⟩, ⟨branch, noon, id⟩, ⟨steady, soon, id⟩, ⟨branch, soon, id⟩]

theorem turns_undisturbed :
    (plaza.run turns).cloud.provisioned.keys = ["shop-00000001", "shop-00000001-00000001"] ∧
      (plaza.run turns).cloud.registered "shop-00000001-tg" = KeySet.ofList ["i-1"] ∧
      SameStacks "shop" (plaza.run turns).cloud
        (plaza.run (turns.filter fun visit => visit.cluster ≠ "shop-00000001")).cloud ∧
      (plaza.outcomes "shop" turns).length = 2 ∧
      plaza.outcomes "shop" turns
        = plaza.outcomes "shop" (turns.filter fun visit => visit.cluster ≠ "shop-00000001") := by
  have supplies : ∀ visit ∈ turns, visit.controller.Supplies := by
    intro visit member
    simp only [turns, List.mem_cons, List.not_mem_nil, or_false] at member
    rcases member with rfl | rfl | rfl | rfl <;> exact numberedName_supplied _
  have undisturbed := run_undisturbed plaza turns "shop" "shop-00000001" (by decide) rfl supplies
  exact ⟨by decide +kernel, by decide +kernel, undisturbed.1, by decide +kernel, undisturbed.2⟩

end Commons

end IngressControl
