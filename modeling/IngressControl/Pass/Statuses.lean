import IngressControl.Orchestrator
import IngressControl.Pass.Stacks
/-!
Reporting the addresses of stacks to the endpoints placed on them, once the stacks are old enough.

An address that is held back is the matter of a debug message. It says how long that will last, and
making it up ends the work where the answer is no span.
-/

namespace IngressControl

structure StatusWork where
  orchestrator : Orchestrator
  changes : StatusChanges := {}
  problems : List Problem := []

namespace StatusWork

def countUpdated (work : StatusWork) : StatusWork :=
  { work with changes := { work.changes with updated := work.changes.updated + 1 } }

def countUnchanged (work : StatusWork) : StatusWork :=
  { work with changes := { work.changes with unchanged := work.changes.unchanged + 1 } }

def countSkipped (work : StatusWork) : StatusWork :=
  { work with changes := { work.changes with skipped := work.changes.skipped + 1 } }

def countWithheld (work : StatusWork) (count : Nat) : StatusWork :=
  { work with changes := { work.changes with withheld := work.changes.withheld + count } }

def write (dryRun : Bool) (address : String) (work : StatusWork) (endpoint : Endpoint) :
    StatusWork :=
  if endpoint.skipDnsRewrite then work.countSkipped
  else if dryRun then work.countUpdated
  else
    match work.orchestrator.updateStatus endpoint.id address with
    | .ok orchestrator => { work with orchestrator }.countUpdated
    | .error (.noUpdateNeeded _) => work.countUnchanged
    | .error failure =>
        { work with
          problems := work.problems ++ [Problem.ofEndpoint endpoint.id.text failure] }

def writeAll (debugs dryRun : Bool) (minAge : Span) (now : Instant) (work : StatusWork)
    (descriptor : Descriptor) : Except TimeOverflow StatusWork :=
  match descriptor.existing with
  | none => .ok work
  | some existing =>
      match existing.stack.address? with
      | none => .ok work
      | some address =>
          if existing.stack.isRoutable now minAge then
            .ok (descriptor.endpoints.foldl (write dryRun address) work)
          else
            let work := work.countWithheld descriptor.endpoints.length
            -- Only a message that is shown asks for the time that is left.
            if debugs then (existing.stack.remaining now minAge).map fun _ => work else .ok work

def reportAll (debugs dryRun : Bool) (minAge : Span) (now : Instant) (work : StatusWork)
    (descriptors : List Descriptor) : Except (TimeOverflow × StatusWork) StatusWork :=
  each (writeAll debugs dryRun minAge now) work descriptors

end StatusWork

end IngressControl
