import IngressControl.Descriptor.Basic
/-!
What is to be done about each load balancer: decisions only, no calls.

A wanted load balancer is created, awaited, reported, updated or left alone. An orphaned stack is
deleted at once when it failed; otherwise its deletion is scheduled, and carried out when the
schedule and the removal times of all its certificates have passed.
-/

namespace IngressControl

inductive DesiredAction where
  | create
  | wait
  | failed
  | update (drift : List Drift)
  | inSync
  deriving DecidableEq, Repr

inductive OrphanAction where
  | delete
  | schedule (moment : Instant)
  | keep
  deriving DecidableEq, Repr

def DesiredAction.json : DesiredAction → Json
  | .create => .object [("action", .text "create")]
  | .wait => .object [("action", .text "wait")]
  | .failed => .object [("action", .text "failed")]
  | .inSync => .object [("action", .text "in_sync")]
  | .update drift =>
      .object [("action", .text "update"), ("drift", .texts (drift.map Drift.name))]

def OrphanAction.json : OrphanAction → Json
  | .delete => .object [("action", .text "delete")]
  | .keep => .object [("action", .text "keep")]
  | .schedule moment => .object [("action", .text "schedule"), ("at", moment.json)]

def Descriptor.plan (descriptor : Descriptor) (now : Instant) (grace : Span) :
    Except TimeOverflow DesiredAction :=
  match descriptor.existing with
  | none => .ok .create
  | some existing =>
      let status := existing.stack.status
      if status.isFailed then .ok .failed
      else if status.isInProgress || status.isDeleting then .ok .wait
      else
        (descriptor.drift now grace).map fun drift => if drift.isEmpty then .inSync else .update drift

def ObservedStack.planOrphan (observed : ObservedStack) (now : Instant) (grace : Span) :
    Except TimeOverflow OrphanAction :=
  let status := observed.stack.status
  if status.isDeleting then .ok .keep
  else if status.isFailed then .ok .delete
  else
    match observed.deletionScheduledAt with
    | none =>
        match now.plus? grace with
        | none => .error .sum
        | some moment => .ok (.schedule moment)
    | some moment =>
        if moment ≤ now ∧ !observed.hasPendingCertificates now then .ok .delete else .ok .keep

def Stack.isRoutable (stack : Stack) (now : Instant) (minAge : Span) : Bool :=
  minAge ≤ stack.age now

def Stack.remaining (stack : Stack) (now : Instant) (minAge : Span) : Except TimeOverflow Span :=
  match minAge.minus? (stack.age now) with
  | none => .error .spanDifference
  | some span => .ok (span.max .zero)

end IngressControl
