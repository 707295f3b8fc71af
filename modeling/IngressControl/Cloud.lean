import IngressControl.Stack.Basic
/-!
A cloud provider kept in memory: stacks, the requests last applied to them, instances and the
registrations in target groups.

Every operation can be set to fail. An operation that fails changes nothing.
-/

namespace IngressControl

structure Cloud where
  settlesAtOnce : Bool := true
  provisioned : Table StackName Stack := {}
  applied : Table StackName StackSpec := {}
  instances : Table String (List InstanceId) := {}
  targets : Table String (KeySet InstanceId) := {}
  failing : KeySet String := {}
  deriving DecidableEq

inductive StackRequest where
  | create (spec : StackSpec)
  | update (spec : StackSpec)
  | scheduleDeletion (stack : StackName) (moment : Instant)
  | delete (stack : StackName)
  deriving DecidableEq

namespace Cloud

def permit (cloud : Cloud) (operation : String) : Except Failure Unit :=
  if cloud.failing.contains operation then .error (.provider operation "injected failure") else .ok ()

def listStacks (cloud : Cloud) (cluster : String) : Except Failure (List Stack) := do
  cloud.permit "list_tagged_stacks"
  return cloud.provisioned.values.filter fun stack =>
    stack.tags.contains Tag.application && Tags.clusterId? stack.tags = some cluster

def dnsName (name : StackName) : String := name ++ ".elb.local"

def targetGroup (name : StackName) : String := name ++ "-tg"

def createStack (cloud : Cloud) (spec : StackSpec) (createdAt : Instant) : Except Failure Cloud := do
  cloud.permit "create_stack"
  if cloud.provisioned.contains spec.name then
    throw (.provider "create_stack" ("stack " ++ spec.name ++ " already exists"))
  let group := targetGroup spec.name
  let stack : Stack :=
    { name := spec.name
      status := if cloud.settlesAtOnce then .createComplete else .createInProgress
      dnsName := some (dnsName spec.name)
      targetGroup := some group
      createdAt
      tags := spec.tags }
  return {
    cloud with
    provisioned := cloud.provisioned.insert spec.name stack
    targets := if cloud.targets.contains group then cloud.targets else cloud.targets.insert group {}
    applied := cloud.applied.insert spec.name spec }

def updateStack (cloud : Cloud) (spec : StackSpec) : Except Failure Cloud := do
  cloud.permit "update_stack"
  match cloud.provisioned.get? spec.name with
  | none => throw (.notFound "stack" spec.name)
  | some stack =>
      if stack.status.isInProgress then
        throw <| .provider "update_stack"
          ("stack " ++ spec.name ++ " is " ++ Choice.name stack.status)
      let status := if cloud.settlesAtOnce then .updateComplete else .updateInProgress
      return {
        cloud with
        provisioned := cloud.provisioned.insert spec.name { stack with status, tags := spec.tags }
        applied := cloud.applied.insert spec.name spec }

def scheduleDeletion (cloud : Cloud) (name : StackName) (moment : Instant) :
    Except Failure Cloud := do
  cloud.permit "schedule_stack_deletion"
  match cloud.provisioned.get? name with
  | none => throw (.notFound "stack" name)
  | some stack =>
      let tags := Tags.setDeletionScheduledAt stack.tags (some moment)
      return { cloud with provisioned := cloud.provisioned.insert name { stack with tags } }

def deleteStack (cloud : Cloud) (name : StackName) : Except Failure Cloud := do
  cloud.permit "delete_stack"
  match cloud.provisioned.get? name with
  | none => throw (.notFound "stack" name)
  | some stack =>
      return {
        cloud with
        provisioned := cloud.provisioned.erase name
        targets := stack.targetGroup.elim cloud.targets cloud.targets.erase
        applied := cloud.applied.erase name }

/-- Carries out a request; a stack that it creates is dated `createdAt`. -/
def perform (cloud : Cloud) (createdAt : Instant) : StackRequest → Except Failure Cloud
  | .create spec => cloud.createStack spec createdAt
  | .update spec => cloud.updateStack spec
  | .scheduleDeletion stack moment => cloud.scheduleDeletion stack moment
  | .delete stack => cloud.deleteStack stack

def listInstances (cloud : Cloud) (cluster : String) : Except Failure (List InstanceId) := do
  cloud.permit "list_cluster_instances"
  return (cloud.instances.get? cluster).getD []

def registered (cloud : Cloud) (group : String) : KeySet InstanceId :=
  (cloud.targets.get? group).getD {}

def listTargets (cloud : Cloud) (group : String) : Except Failure (List InstanceId) := do
  cloud.permit "list_registered_targets"
  return (cloud.registered group).keys

def registerTargets (cloud : Cloud) (group : String) (instances : List InstanceId) :
    Except Failure Cloud := do
  cloud.permit "register_targets"
  return { cloud with
    targets := cloud.targets.insert group ((cloud.registered group).addAll instances) }

/-- Takes instances out of a target group. A group that does not exist stays so. -/
def deregisterTargets (cloud : Cloud) (group : String) (instances : List InstanceId) :
    Except Failure Cloud := do
  cloud.permit "deregister_targets"
  return { cloud with
    targets := cloud.targets.modify group fun members =>
      members.filter fun member _ => !instances.contains member }

def insertStack (cloud : Cloud) (stack : Stack) : Cloud :=
  { cloud with provisioned := cloud.provisioned.insert stack.name stack }

def changeStack (cloud : Cloud) (name : StackName) (change : Stack → Stack) : Cloud :=
  { cloud with provisioned := cloud.provisioned.modify name change }

def setStatus (cloud : Cloud) (name : StackName) (status : StackStatus) : Cloud :=
  cloud.changeStack name fun stack => { stack with status }

def setCreatedAt (cloud : Cloud) (name : StackName) (createdAt : Instant) : Cloud :=
  cloud.changeStack name fun stack => { stack with createdAt }

def setInstances (cloud : Cloud) (cluster : String) (instances : List InstanceId) : Cloud :=
  { cloud with instances := cloud.instances.insert cluster instances }

def fail (cloud : Cloud) (operation : String) : Cloud :=
  { cloud with failing := cloud.failing.add operation }

def clearFailures (cloud : Cloud) : Cloud := { cloud with failing := {} }

end Cloud

end IngressControl
