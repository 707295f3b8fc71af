import IngressControl.Cloud
import IngressControl.Plan
import IngressControl.Report
/-!
Carrying out the plans of load balancers.

Each plan comes to one request at most, and a request that fails is recorded without keeping the
others from being made. Only a sum of times that leaves the representable range ends the work at
once; what was done until then stays done.
-/

namespace IngressControl

structure StackPolicy where
  cluster : String
  grace : Span
  dryRun : Bool
  freshName : Nat → StackName
  createdAt : Instant

structure StackWork where
  cloud : Cloud
  created : Nat := 0
  requests : List StackRequest := []
  granted : List StackRequest := []
  changes : StackChanges := {}
  problems : List Problem := []
  deriving DecidableEq

namespace StackChanges

def countDesired (changes : StackChanges) : DesiredAction → StackChanges
  | .create => { changes with created := changes.created + 1 }
  | .update _ => { changes with updated := changes.updated + 1 }
  | .inSync => { changes with unchanged := changes.unchanged + 1 }
  | .wait => { changes with waiting := changes.waiting + 1 }
  | .failed => changes

def countOrphan (changes : StackChanges) : OrphanAction → StackChanges
  | .delete => { changes with deleted := changes.deleted + 1 }
  | .schedule _ => { changes with scheduled := changes.scheduled + 1 }
  | .keep => changes

end StackChanges

/-- What a plan asks for: a request, nothing, or the report of a failure. -/
inductive Move where
  | request (request : StackRequest)
  | nothing
  | refuse (failure : Failure)
  deriving DecidableEq

/-- How a problem with a load balancer is scoped: by its stack, or by its endpoints as long as it
has none. -/
def Descriptor.scope (descriptor : Descriptor) : String :=
  match descriptor.stackName? with
  | some name => "stack " ++ name
  | none => "new load balancer for " ++ descriptor.endpointsText

def Descriptor.move (descriptor : Descriptor) (policy : StackPolicy) (fresh : StackName)
    (now : Instant) : DesiredAction → Except TimeOverflow Move
  | .create => do
      return .request (.create (← descriptor.spec fresh policy.cluster now policy.grace))
  | .update _ =>
      match descriptor.existing with
      | some existing => do
          return .request
            (.update (← descriptor.spec existing.name policy.cluster now policy.grace))
      | none => .ok (.refuse (.internal "descriptor has no existing stack"))
  | .failed =>
      match descriptor.existing with
      | some existing =>
          .ok (.refuse (.provider "reconcile_stack"
            ("stack is in state " ++ Choice.name existing.stack.status
              ++ " and needs manual attention")))
      | none => .ok (.refuse (.internal "descriptor has no existing stack"))
  | .wait => .ok .nothing
  | .inSync => .ok .nothing

def ObservedStack.move (observed : ObservedStack) : OrphanAction → Move
  | .schedule moment => .request (.scheduleDeletion observed.name moment)
  | .delete => .request (.delete observed.name)
  | .keep => .nothing

/-- Does a step for each item. An overflow comes with the work done until then. -/
def each {σ α : Type} (step : σ → α → Except TimeOverflow σ) (work : σ) :
    List α → Except (TimeOverflow × σ) σ
  | [] => .ok work
  | item :: rest =>
      match step work item with
      | .error overflow => .error (overflow, work)
      | .ok work => each step work rest

namespace StackWork

/-- Notes that a request is made. A creation takes a fresh name even if it fails. -/
def note (work : StackWork) (request : StackRequest) : StackWork :=
  { work with
    requests := work.requests ++ [request]
    created :=
      match request with
      | .create _ => work.created + 1
      | _ => work.created }

/-- Makes a request: counts it if it succeeds, records a problem otherwise. -/
def issue (policy : StackPolicy) (work : StackWork) (scope : String)
    (count : StackChanges → StackChanges) (request : StackRequest) : StackWork :=
  let work := work.note request
  match work.cloud.perform policy.createdAt request with
  | .ok cloud =>
      { work with cloud, granted := work.granted ++ [request], changes := count work.changes }
  | .error failure => { work with problems := work.problems ++ [⟨scope, failure⟩] }

/-- Carries out a move. A dry run counts what it would request and requests nothing. -/
def apply (policy : StackPolicy) (work : StackWork) (scope : String)
    (count : StackChanges → StackChanges) : Move → StackWork
  | .nothing => { work with changes := count work.changes }
  | .refuse failure => { work with problems := work.problems ++ [⟨scope, failure⟩] }
  | .request request =>
      if policy.dryRun then { work with changes := count work.changes }
      else work.issue policy scope count request

def reconcile (policy : StackPolicy) (now : Instant) (work : StackWork) (descriptor : Descriptor) :
    Except TimeOverflow StackWork := do
  let action ← descriptor.plan now policy.grace
  let move ← descriptor.move policy (policy.freshName work.created) now action
  return work.apply policy descriptor.scope (fun changes => changes.countDesired action) move

def cleanUp (policy : StackPolicy) (now : Instant) (work : StackWork) (orphan : ObservedStack) :
    Except TimeOverflow StackWork := do
  let action ← orphan.planOrphan now policy.grace
  return work.apply policy ("stack " ++ orphan.name) (fun changes => changes.countOrphan action)
    (orphan.move action)

def reconcileAll (policy : StackPolicy) (now : Instant) (work : StackWork)
    (descriptors : List Descriptor) : Except (TimeOverflow × StackWork) StackWork :=
  each (reconcile policy now) work descriptors

def cleanUpAll (policy : StackPolicy) (now : Instant) (work : StackWork)
    (orphans : List ObservedStack) : Except (TimeOverflow × StackWork) StackWork :=
  each (cleanUp policy now) work orphans

end StackWork

end IngressControl
