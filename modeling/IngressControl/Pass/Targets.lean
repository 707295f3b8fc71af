import IngressControl.Cloud
import IngressControl.Report
/-!
Keeping target groups in line with the instances of the cluster.

Instances that are missing from the group of a complete stack are registered, others are taken
out. The instances are listed once.
-/

namespace IngressControl

structure TargetWork where
  cloud : Cloud
  changes : TargetChanges := {}
  problems : List Problem := []
  deriving DecidableEq

namespace TargetWork

def routableGroups (listed : List Stack) : List String :=
  (listed.filter fun stack => stack.status.isComplete).filterMap Stack.targetGroup

def addProblem (work : TargetWork) (scope : String) (failure : Failure) : TargetWork :=
  { work with problems := work.problems ++ [⟨scope, failure⟩] }

def register (dryRun : Bool) (work : TargetWork) (group : String) (missing : List InstanceId) :
    Except Failure TargetWork := do
  if missing.isEmpty then return work
  let cloud ← if dryRun then pure work.cloud else work.cloud.registerTargets group missing
  return { work with
    cloud
    changes := { work.changes with registered := work.changes.registered + missing.length } }

def deregister (dryRun : Bool) (work : TargetWork) (group : String) (stale : List InstanceId) :
    Except Failure TargetWork := do
  if stale.isEmpty then return work
  let cloud ← if dryRun then pure work.cloud else work.cloud.deregisterTargets group stale
  return { work with
    cloud
    changes := { work.changes with deregistered := work.changes.deregistered + stale.length } }

/-- Brings one group in line with the instances. What is done before a failure stays done. -/
def syncGroup (dryRun : Bool) (instances : KeySet InstanceId) (work : TargetWork)
    (group : String) : TargetWork :=
  match work.cloud.listTargets group with
  | .error failure => work.addProblem ("target group " ++ group) failure
  | .ok registered =>
      let members := KeySet.ofList registered
      match work.register dryRun group (KeySet.without instances members) with
      | .error failure => work.addProblem ("target group " ++ group) failure
      | .ok work =>
          match work.deregister dryRun group (KeySet.without members instances) with
          | .error failure => work.addProblem ("target group " ++ group) failure
          | .ok work => work

def sync (cluster : String) (dryRun : Bool) (work : TargetWork) (listed : List Stack) :
    TargetWork :=
  let groups := routableGroups listed
  if groups.isEmpty then work
  else
    match work.cloud.listInstances cluster with
    | .error failure => work.addProblem ("instances of " ++ cluster) failure
    | .ok instances => groups.foldl (syncGroup dryRun (KeySet.ofList instances)) work

end TargetWork

end IngressControl
