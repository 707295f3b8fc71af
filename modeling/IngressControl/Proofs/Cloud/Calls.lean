import IngressControl.Proofs.Cloud
/-!
Sequences of calls on a cloud, each of them granted or refused.

A call writes one table after the other, and asks in between whether it may go on. Done in this
way it still does all that it should or nothing at all. So every sequence of calls that starts
from an empty cloud keeps the stacks and the requests applied to them in line.
-/

namespace IngressControl

inductive CloudCall where
  | request (createdAt : Instant) (request : StackRequest)
  | register (group : String) (instances : List InstanceId)
  | deregister (group : String) (instances : List InstanceId)
  | setStatus (stack : StackName) (status : StackStatus)
  | setCreatedAt (stack : StackName) (createdAt : Instant)
  | setInstances (cluster : String) (instances : List InstanceId)
  | fail (operation : String)
  | clearFailures

def CloudCall.answer (cloud : Cloud) : CloudCall → Except Failure Cloud
  | .request createdAt asked => cloud.perform createdAt asked
  | .register group instances => cloud.registerTargets group instances
  | .deregister group instances => cloud.deregisterTargets group instances
  | .setStatus stack status => .ok (cloud.setStatus stack status)
  | .setCreatedAt stack createdAt => .ok (cloud.setCreatedAt stack createdAt)
  | .setInstances cluster instances => .ok (cloud.setInstances cluster instances)
  | .fail operation => .ok (cloud.fail operation)
  | .clearFailures => .ok cloud.clearFailures

/-- Work on a cloud, one table after the other. What was written before a refusal stays. -/
abbrev CloudWork (α : Type) := ExceptT Failure (StateM Cloud) α

namespace CloudWork

section Steps

def permit (operation : String) : CloudWork Unit := do
  if (← get).failing.contains operation then throw (.provider operation "injected failure")

def writeStack (name : StackName) (stack : Cloud → Stack) : CloudWork Unit :=
  modify fun cloud => { cloud with provisioned := cloud.provisioned.insert name (stack cloud) }

def writeTargets (change : Table String (KeySet InstanceId) → Table String (KeySet InstanceId)) :
    CloudWork Unit :=
  modify fun cloud => { cloud with targets := change cloud.targets }

def writeApplied (change : Table StackName StackSpec → Table StackName StackSpec) :
    CloudWork Unit :=
  modify fun cloud => { cloud with applied := change cloud.applied }

end Steps

def create (createdAt : Instant) (spec : StackSpec) : CloudWork Unit := do
  permit "create_stack"
  if (← get).provisioned.contains spec.name then
    throw (.provider "create_stack" ("stack " ++ spec.name ++ " already exists"))
  else
    let group := Cloud.targetGroup spec.name
    writeStack spec.name fun cloud => Cloud.newStack cloud.settlesAtOnce createdAt spec
    writeTargets fun targets => if targets.contains group then targets else targets.insert group {}
    writeApplied fun applied => applied.insert spec.name spec

def update (spec : StackSpec) : CloudWork Unit := do
  permit "update_stack"
  match (← get).provisioned.get? spec.name with
  | none => throw (.notFound "stack" spec.name)
  | some stack =>
      if stack.status.isInProgress then
        throw <| .provider "update_stack"
          ("stack " ++ spec.name ++ " is " ++ Choice.name stack.status)
      else
        writeStack spec.name fun cloud => { stack with
          status := if cloud.settlesAtOnce then .updateComplete else .updateInProgress
          tags := spec.tags }
        writeApplied fun applied => applied.insert spec.name spec

def scheduleDeletion (name : StackName) (moment : Instant) : CloudWork Unit := do
  permit "schedule_stack_deletion"
  match (← get).provisioned.get? name with
  | none => throw (.notFound "stack" name)
  | some stack =>
      writeStack name fun _ =>
        { stack with tags := Tags.setDeletionScheduledAt stack.tags (some moment) }

def delete (name : StackName) : CloudWork Unit := do
  permit "delete_stack"
  let found := (← get).provisioned.get? name
  -- The stack is taken away before it is asked whether there was one.
  modify fun cloud => { cloud with provisioned := cloud.provisioned.erase name }
  match found with
  | none => throw (.notFound "stack" name)
  | some stack =>
      writeTargets fun targets => stack.targetGroup.elim targets targets.erase
      writeApplied fun applied => applied.erase name

def perform (createdAt : Instant) : StackRequest → CloudWork Unit
  | .create spec => create createdAt spec
  | .update spec => update spec
  | .scheduleDeletion stack moment => scheduleDeletion stack moment
  | .delete stack => delete stack

def register (group : String) (instances : List InstanceId) : CloudWork Unit := do
  permit "register_targets"
  writeTargets fun targets =>
    targets.insert group (((targets.get? group).getD {}).addAll instances)

def deregister (group : String) (instances : List InstanceId) : CloudWork Unit := do
  permit "deregister_targets"
  writeTargets fun targets => targets.modify group fun members =>
    members.filter fun member _ => !instances.contains member

def outcome (work : CloudWork Unit) (cloud : Cloud) : Except Failure Unit × Cloud := work.run cloud

end CloudWork

namespace Cloud

def settled (cloud : Cloud) : Except Failure Cloud → Except Failure Unit × Cloud
  | .ok after => (.ok (), after)
  | .error failure => (.error failure, cloud)

end Cloud

namespace CloudWork

variable {cloud : Cloud}

theorem outcome_get_bind (work : Cloud → CloudWork Unit) :
    outcome (get >>= work) cloud = outcome (work cloud) cloud := rfl

theorem outcome_permit_bind {operation : String} {work : CloudWork Unit}
    {answer : Except Failure Cloud} (whole : outcome work cloud = cloud.settled answer) :
    outcome (permit operation >>= fun _ => work) cloud
      = cloud.settled (cloud.permit operation >>= fun _ => answer) := by
  have checked : outcome (permit operation >>= fun _ => work) cloud
      = outcome ((if cloud.failing.contains operation then
          throw (.provider operation "injected failure") else pure ()) >>= fun _ => work) cloud := rfl
  rw [checked, Cloud.permit]
  by_cases failing : cloud.failing.contains operation = true
  · rw [if_pos failing, if_pos failing]
    rfl
  · rw [if_neg failing, if_neg failing]
    exact whole

theorem create_settled (createdAt : Instant) (spec : StackSpec) :
    outcome (create createdAt spec) cloud = cloud.settled (cloud.createStack spec createdAt) := by
  refine outcome_permit_bind ?_
  rw [outcome_get_bind]
  by_cases present : cloud.provisioned.contains spec.name = true
  · rw [if_pos present, if_pos present]
    rfl
  · rw [if_neg present, if_neg present]
    rfl

theorem update_settled (spec : StackSpec) :
    outcome (update spec) cloud = cloud.settled (cloud.updateStack spec) := by
  refine outcome_permit_bind ?_
  rw [outcome_get_bind]
  cases found : cloud.provisioned.get? spec.name with
  | none => rfl
  | some stack =>
      by_cases busy : stack.status.isInProgress = true
      · simp only [if_pos busy]
        rfl
      · simp only [if_neg busy]
        rfl

theorem scheduleDeletion_settled (name : StackName) (moment : Instant) :
    outcome (scheduleDeletion name moment) cloud
      = cloud.settled (cloud.scheduleDeletion name moment) := by
  refine outcome_permit_bind ?_
  rw [outcome_get_bind]
  cases cloud.provisioned.get? name with
  | none => rfl
  | some stack => rfl

theorem delete_settled (name : StackName) :
    outcome (delete name) cloud = cloud.settled (cloud.deleteStack name) := by
  refine outcome_permit_bind ?_
  rw [outcome_get_bind]
  cases found : cloud.provisioned.get? name with
  | none =>
      -- What was taken away was not there.
      have same : { cloud with provisioned := cloud.provisioned.erase name } = cloud := by
        rw [Table.erase_of_absent found]
      exact congrArg (Prod.mk _) same
  | some stack => rfl

theorem perform_settled (createdAt : Instant) (request : StackRequest) :
    outcome (perform createdAt request) cloud
      = cloud.settled (cloud.perform createdAt request) := by
  cases request with
  | create spec => exact create_settled createdAt spec
  | update spec => exact update_settled spec
  | scheduleDeletion stack moment => exact scheduleDeletion_settled stack moment
  | delete stack => exact delete_settled stack

end CloudWork

namespace CloudCall

def work : CloudCall → CloudWork Unit
  | .request createdAt asked => CloudWork.perform createdAt asked
  | .register group instances => CloudWork.register group instances
  | .deregister group instances => CloudWork.deregister group instances
  | .setStatus stack status => modify fun cloud => cloud.setStatus stack status
  | .setCreatedAt stack createdAt => modify fun cloud => cloud.setCreatedAt stack createdAt
  | .setInstances cluster instances => modify fun cloud => cloud.setInstances cluster instances
  | .fail operation => modify fun cloud => cloud.fail operation
  | .clearFailures => modify fun cloud => cloud.clearFailures

/-- A call does all that it should or nothing at all, though it writes one table after the other. -/
theorem work_settled (call : CloudCall) (cloud : Cloud) :
    call.work.outcome cloud = cloud.settled (call.answer cloud) := by
  cases call with
  | request createdAt asked => exact CloudWork.perform_settled createdAt asked
  | register group instances => exact CloudWork.outcome_permit_bind rfl
  | deregister group instances => exact CloudWork.outcome_permit_bind rfl
  | setStatus stack status => rfl
  | setCreatedAt stack createdAt => rfl
  | setInstances cluster instances => rfl
  | fail operation => rfl
  | clearFailures => rfl

def outcome (call : CloudCall) (cloud : Cloud) : Except Failure Unit × Cloud :=
  call.work.outcome cloud

/-- What can be said of a call in any state of the cloud. -/
structure Careful (call : CloudCall) (cloud : Cloud) : Prop where
  whole : call.outcome cloud = cloud.settled (call.answer cloud)
  refused : ∀ failure, (call.outcome cloud).1 = .error failure → (call.outcome cloud).2 = cloud
  present : ∀ createdAt spec, call = .request createdAt (.create spec) →
    cloud.provisioned.contains spec.name = true →
      ∃ failure, (call.outcome cloud).1 = .error failure
  busy : ∀ createdAt spec stack, call = .request createdAt (.update spec) →
    cloud.provisioned.get? spec.name = some stack → stack.status.isInProgress = true →
      ∃ failure, (call.outcome cloud).1 = .error failure

theorem careful (call : CloudCall) (cloud : Cloud) : call.Careful cloud where
  whole := work_settled call cloud
  refused failure told := by
    rw [outcome, work_settled] at told ⊢
    cases answer : call.answer cloud with
    | ok after =>
        rw [answer] at told
        cases told
    | error reason => rfl
  present createdAt spec same known := by
    subst same
    rw [outcome, work_settled]
    cases answer : CloudCall.answer cloud (.request createdAt (.create spec)) with
    | error failure => exact ⟨failure, rfl⟩
    | ok after =>
        obtain ⟨absent, _⟩ := Cloud.perform_create answer
        rw [Table.contains, absent] at known
        cases known
  busy createdAt spec stack same known busy := by
    subst same
    rw [outcome, work_settled]
    cases answer : CloudCall.answer cloud (.request createdAt (.update spec)) with
    | error failure => exact ⟨failure, rfl⟩
    | ok after =>
        obtain ⟨old, found, idle, _⟩ := Cloud.updateStack_eq_ok answer
        obtain rfl := Option.some.inj (known.symm.trans found)
        rw [busy] at idle
        cases idle

end CloudCall

namespace Cloud

variable {cloud after : Cloud} {name : StackName}

/-- What is known under a name: nothing, or a stack with the request that was last applied to it. -/
inductive Matched (name : StackName) : Option Stack → Option StackSpec → Prop
  | absent : Matched name none none
  | present {stack : Stack} {spec : StackSpec} (stack_name : stack.name = name)
      (spec_name : spec.name = name) (tagged : Resembles stack.tags spec.tags) :
      Matched name (some stack) (some spec)

theorem matched_of_stack {stack : Stack} {spec : Option StackSpec}
    (matched : Matched name (some stack) spec) : stack.name = name ∧
      ∃ stated, spec = some stated ∧ stated.name = name ∧ Resembles stack.tags stated.tags := by
  cases matched with
  | present stack_name spec_name tagged => exact ⟨stack_name, _, rfl, spec_name, tagged⟩

def AllMatched (cloud : Cloud) : Prop :=
  ∀ name, Matched name (cloud.provisioned.get? name) (cloud.applied.get? name)

theorem allMatched_of_own (name : StackName) (matched : cloud.AllMatched)
    (elsewhere : ∀ other, other ≠ name →
      after.provisioned.get? other = cloud.provisioned.get? other ∧
        after.applied.get? other = cloud.applied.get? other)
    (own : Matched name (after.provisioned.get? name) (after.applied.get? name)) :
    after.AllMatched := by
  intro other
  by_cases same : other = name
  · subst same
    exact own
  · obtain ⟨stack_kept, spec_kept⟩ := elsewhere other same
    rw [stack_kept, spec_kept]
    exact matched other

theorem perform_matched {createdAt : Instant} {request : StackRequest}
    (matched : cloud.AllMatched) (granted : cloud.perform createdAt request = .ok after) :
    after.AllMatched := by
  cases request with
  | create spec =>
      obtain ⟨_, rfl⟩ := perform_create granted
      refine allMatched_of_own spec.name matched (fun other differs =>
        ⟨Table.get?_insert_of_ne _ differs, Table.get?_insert_of_ne _ differs⟩) ?_
      rw [Table.get?_insert_self, Table.get?_insert_self]
      exact .present rfl rfl fun _ _ => rfl
  | update spec =>
      obtain ⟨stack, known, rfl⟩ := perform_update granted
      refine allMatched_of_own spec.name matched (fun other differs =>
        ⟨Table.get?_insert_of_ne _ differs, Table.get?_insert_of_ne _ differs⟩) ?_
      rw [Table.get?_insert_self, Table.get?_insert_self]
      obtain ⟨stack_name, _⟩ := matched_of_stack (known ▸ matched spec.name)
      exact .present stack_name rfl fun _ _ => rfl
  | scheduleDeletion name moment =>
      obtain ⟨stack, known, rfl⟩ := perform_scheduleDeletion granted
      refine allMatched_of_own name matched (fun other differs =>
        ⟨Table.get?_insert_of_ne _ differs, rfl⟩) ?_
      rw [Table.get?_insert_self]
      obtain ⟨stack_name, spec, stated, spec_name, tagged⟩ := matched_of_stack (known ▸ matched name)
      rw [stated]
      -- The deletion time is the tag that may differ.
      exact .present stack_name spec_name fun key other =>
        (Table.get?_insert_of_ne _ other).trans (tagged key other)
  | delete name =>
      obtain ⟨_, _, rfl⟩ := perform_delete granted
      refine allMatched_of_own name matched (fun other differs =>
        ⟨Table.get?_erase_of_ne differs, Table.get?_erase_of_ne differs⟩) ?_
      rw [Table.get?_erase_self, Table.get?_erase_self]
      exact .absent

theorem changeStack_matched {change : Stack → Stack} (matched : cloud.AllMatched)
    (keeps : ∀ stack, (change stack).name = stack.name ∧ (change stack).tags = stack.tags) :
    (cloud.changeStack name change).AllMatched := by
  refine allMatched_of_own name matched (fun other differs =>
    ⟨Table.get?_modify_of_ne _ differs, rfl⟩) ?_
  have before := matched name
  rw [changeStack, Table.get?_modify_self]
  generalize cloud.provisioned.get? name = stack, cloud.applied.get? name = spec at before
  cases before with
  | absent => exact .absent
  | @present stack spec stack_name spec_name tagged =>
      obtain ⟨called, kept⟩ := keeps stack
      exact .present (called.trans stack_name) spec_name (kept ▸ tagged)

theorem answer_matched {call : CloudCall} (matched : cloud.AllMatched)
    (granted : call.answer cloud = .ok after) : after.AllMatched := by
  cases call with
  | request createdAt asked => exact perform_matched matched granted
  | register group instances =>
      cases permit_bind_eq_ok granted
      exact matched
  | deregister group instances =>
      cases permit_bind_eq_ok granted
      exact matched
  | setStatus name status =>
      cases granted
      exact changeStack_matched matched fun _ => ⟨rfl, rfl⟩
  | setCreatedAt name createdAt =>
      cases granted
      exact changeStack_matched matched fun _ => ⟨rfl, rfl⟩
  | setInstances cluster instances =>
      cases granted
      exact matched
  | fail operation =>
      cases granted
      exact matched
  | clearFailures =>
      cases granted
      exact matched

def follow (cloud : Cloud) : List CloudCall → Cloud
  | [] => cloud
  | call :: rest => follow (call.outcome cloud).2 rest

theorem outcome_matched (call : CloudCall) (matched : cloud.AllMatched) :
    (call.outcome cloud).2.AllMatched := by
  rw [CloudCall.outcome, CloudCall.work_settled]
  cases answer : call.answer cloud with
  | ok after => exact answer_matched matched answer
  | error failure => exact matched

theorem follow_matched (matched : cloud.AllMatched) (calls : List CloudCall) :
    (cloud.follow calls).AllMatched := by
  induction calls generalizing cloud with
  | nil => exact matched
  | cons call rest ih => exact ih (outcome_matched call matched)

/-- Stacks and the requests last applied to them are in line. -/
structure Consistent (cloud : Cloud) : Prop where
  keys : cloud.provisioned.keys = cloud.applied.keys
  stack_name : ∀ name stack, cloud.provisioned.get? name = some stack → stack.name = name
  spec_name : ∀ name spec, cloud.applied.get? name = some spec → spec.name = name
  tagged : ∀ name stack spec, cloud.provisioned.get? name = some stack →
    cloud.applied.get? name = some spec → Resembles stack.tags spec.tags

theorem consistent_of_matched (matched : cloud.AllMatched) : cloud.Consistent where
  keys := Table.keys_eq_of_contains fun name => by
    have known := matched name
    rw [Table.contains, Table.contains]
    generalize cloud.provisioned.get? name = stack, cloud.applied.get? name = spec at known
    cases known with
    | absent => rfl
    | present => rfl
  stack_name name stack found := (matched_of_stack (found ▸ matched name)).1
  spec_name name spec found := by
    have known := matched name
    rw [found] at known
    generalize cloud.provisioned.get? name = stack at known
    cases known with
    | present _ spec_name _ => exact spec_name
  tagged name stack spec found stated := by
    obtain ⟨_, other, same, _, tagged⟩ := matched_of_stack (found ▸ matched name)
    obtain rfl := Option.some.inj (stated.symm.trans same)
    exact tagged

/-- Whatever is asked of a cloud that starts empty, its stacks and the requests last applied to them
stay in line, and a call that is refused changes nothing. -/
theorem follow_consistent (settlesAtOnce : Bool) (calls : List CloudCall) :
    (follow { settlesAtOnce } calls).Consistent ∧
      ∀ (call : CloudCall) (cloud : Cloud), call.Careful cloud :=
  ⟨consistent_of_matched (follow_matched (fun _ => .absent) calls), CloudCall.careful⟩

def opening : StackSpec where
  name := "a-1"
  key :=
    { scheme := .internal, securityGroup := "", sslPolicy := "ELBSecurityPolicy-2016-08"
      loadBalancerType := .application, addressFamily := .ipv4, http2 := true, webAcl := none }
  certificates := []
  alarms := none
  tags := Tags.ownedBy "a"

def halting : List CloudCall :=
  [.request ⟨0, 0⟩ (.create opening), .request ⟨0, 0⟩ (.scheduleDeletion "a-1" ⟨0, 0⟩),
    .fail "delete_stack"]

theorem halting_consistent :
    (follow { settlesAtOnce := false } halting).Consistent ∧
      (follow { settlesAtOnce := false } halting).applied.keys = ["a-1"] ∧
      (follow { settlesAtOnce := false } halting).mark "a-1" = some "1970-01-01T00:00:00Z" ∧
      ((CloudCall.request ⟨0, 0⟩ (.delete "b-1")).outcome {}).2 = {} ∧
      ((CloudCall.request ⟨0, 0⟩ (.update opening)).outcome
        (follow { settlesAtOnce := false } halting)).2
          = follow { settlesAtOnce := false } halting := by
  obtain ⟨consistent, careful⟩ := follow_consistent false halting
  refine ⟨consistent, by decide +kernel, by decide +kernel, ?_, ?_⟩
  · exact (careful (.request ⟨0, 0⟩ (.delete "b-1")) {}).refused _ rfl
  · have standing : ((follow { settlesAtOnce := false } halting).provisioned.get? "a-1").map
        Stack.status = some .createInProgress := by decide +kernel
    obtain ⟨stack, found, status⟩ := Option.map_eq_some_iff.mp standing
    have careful := careful (.request ⟨0, 0⟩ (.update opening))
      (follow { settlesAtOnce := false } halting)
    obtain ⟨failure, refused⟩ := careful.busy _ opening stack rfl found (by rw [status]; rfl)
    exact careful.refused failure refused

end Cloud

end IngressControl
