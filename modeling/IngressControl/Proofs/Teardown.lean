import IngressControl.Proofs.Constancy
import IngressControl.Proofs.Pass.Cutover
import IngressControl.Proofs.Run
/-!
Runs that take stacks away under addresses still reported.

Two waits are at work: a stack goes a grace period after it was scheduled, and an address is
reported once its stack has the minimum age. Where the grace period is longer, an endpoint can be
left with the address of a stack that goes only if it has moved again since, to a stack created
after the scheduling.
-/

namespace IngressControl

namespace Instant

end Instant

namespace Cloud

def SameStacks (before after : Cloud) : Prop :=
  after.provisioned = before.provisioned ∧ after.settlesAtOnce = before.settlesAtOnce

end Cloud

namespace Controller

variable {controller : Controller}

def follow (controller : Controller) (world : World) : List (Int × Endpoint) → List Turn
  | [] => []
  | (second, endpoint) :: rest =>
      let moment : Instant := ⟨midday.now.second + second, 0⟩
      let turn : Turn :=
        { world := { world with orchestrator := world.orchestrator.upsert endpoint }
          circumstances := { midday with now := moment, createdAt := moment } }
      turn :: follow controller (turn.result controller).world rest

end Controller

end IngressControl
