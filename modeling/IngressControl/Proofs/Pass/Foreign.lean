import IngressControl.Proofs.Pass.Continuity
import IngressControl.Proofs.Pass.Delivery
import IngressControl.Proofs.Run
/-!
Stacks that are not the cluster's.

A pass updates, schedules and deletes stacks that it has listed, and a creation never takes a name
that is given away. So a stack that is not listed comes through every pass as it is. What is listed
is decided by the cluster and by the presence of the controller's mark; the value of the mark is not
compared, so that the stacks of another controller for the same cluster are listed as well.
-/

namespace IngressControl

/-- The stack has the mark of this controller, and the cluster is its own. -/
def Stack.IsMarked (stack : Stack) (cluster : String) : Prop :=
  stack.tags.get? Tag.application = some Tag.applicationValue ∧
    Tags.clusterId? stack.tags = some cluster

namespace Controller

variable {controller : Controller} {circumstances : Circumstances} {world : World}

/-- A stack that is not the cluster's is the same after a pass, however the pass ends. -/
theorem pass_spares (named : world.cloud.Named) {name : StackName} {stack : Stack}
    (present : world.cloud.provisioned.get? name = some stack)
    (foreign : ¬ stack.IsOf controller.settings.clusterId) :
    (controller.pass circumstances world).world.cloud.provisioned.get? name = some stack := by
  rcases controller.pass_cases circumstances world with ⟨same, _⟩ | ⟨_, _, _, _, _, grounded⟩
  · rw [same, present]
  · obtain ⟨cloud, performs, same⟩ := grounded.performed
    rw [same]
    refine Cloud.performs_spares performs present fun request granted called => ?_
    rcases pass_about named granted with created | ⟨other, found, ours⟩
    · exact created
    · obtain rfl := Option.some.inj (present.symm.trans (called ▸ found))
      exact absurd ours foreign

def neighbour : Stack :=
  { abandoned with status := .createFailed, tags := Tags.ownedBy "depot" }

def beside : World where
  cloud := ({} : Cloud).insertStack neighbour

theorem neighbour_spared :
    beside.cloud.Named ∧ beside.cloud.provisioned.get? "old" = some neighbour ∧
      ¬ neighbour.IsOf "shop" ∧
      (steady.pass noon beside).world.cloud.provisioned.get? "old" = some neighbour := by
  have named : beside.cloud.Named := Cloud.insertStack_named Cloud.empty_named neighbour
  have present : beside.cloud.provisioned.get? "old" = some neighbour := by decide +kernel
  have foreign : ¬ neighbour.IsOf steady.settings.clusterId := by
    rintro ⟨_, owned⟩
    revert owned
    decide
  exact ⟨named, present, foreign, pass_spares named present foreign⟩

def rival : Stack :=
  { abandoned with status := .createFailed, tags := abandoned.tags.insert Tag.application "blue" }

def contested : World where
  cloud := ({} : Cloud).insertStack rival

/-- A failed stack of the cluster with the mark of another controller is taken for one of this
controller, and the first pass deletes it. -/
theorem rival_deleted :
    Controller.ofSettings? steady.settings = some steady ∧ contested.cloud.Named ∧
      ¬ ∀ name stack, contested.cloud.provisioned.get? name = some stack →
        ¬ stack.IsMarked steady.settings.clusterId →
        ∃ later, (steady.pass noon contested).world.cloud.provisioned.get? name = some later ∧
          later.status = stack.status ∧ later.tags = stack.tags := by
  refine ⟨rfl, Cloud.insertStack_named Cloud.empty_named rival, fun all => ?_⟩
  have unmarked : ¬ rival.IsMarked steady.settings.clusterId := by
    rintro ⟨application, _⟩
    revert application
    decide
  have gone : (steady.pass noon contested).world.cloud.provisioned.get? "old" = none := by
    decide +kernel
  obtain ⟨later, found, _⟩ := all "old" rival (by decide +kernel) unmarked
  rw [gone] at found
  cases found

end Controller

end IngressControl
