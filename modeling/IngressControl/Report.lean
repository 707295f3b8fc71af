import IngressControl.Failure
import IngressControl.Json.Basic
/-!
What a pass did, and what went wrong in it. A pass goes on after a failure, so that a report may
hold many.
-/

namespace IngressControl

structure Problem where
  scope : String
  failure : Failure
  deriving DecidableEq, Repr

namespace Problem

def text (problem : Problem) : String := problem.scope ++ ": " ++ problem.failure.message

def ofStack (name : String) (failure : Failure) : Problem := ⟨"stack " ++ name, failure⟩

def ofEndpoint (id : String) (failure : Failure) : Problem := ⟨"endpoint " ++ id, failure⟩

def json (problem : Problem) : Json :=
  .object
    [("scope", .text problem.scope), ("error", .text problem.failure.kind),
      ("message", .text problem.failure.message)]

end Problem

structure StackChanges where
  created : Nat := 0
  updated : Nat := 0
  unchanged : Nat := 0
  waiting : Nat := 0
  scheduled : Nat := 0
  deleted : Nat := 0
  deriving DecidableEq, Repr

structure StatusChanges where
  updated : Nat := 0
  unchanged : Nat := 0
  withheld : Nat := 0
  skipped : Nat := 0
  deriving DecidableEq, Repr

structure TargetChanges where
  registered : Nat := 0
  deregistered : Nat := 0
  deriving DecidableEq, Repr

structure Report where
  endpoints : Nat := 0
  descriptors : Nat := 0
  stackChanges : StackChanges := {}
  statusChanges : StatusChanges := {}
  targetChanges : TargetChanges := {}
  problems : List Problem := []
  deriving DecidableEq, Repr

def StackChanges.json (changes : StackChanges) : Json :=
  .object
    [("created", .integer changes.created), ("updated", .integer changes.updated),
      ("unchanged", .integer changes.unchanged), ("waiting", .integer changes.waiting),
      ("scheduled", .integer changes.scheduled), ("deleted", .integer changes.deleted)]

def StatusChanges.json (changes : StatusChanges) : Json :=
  .object
    [("updated", .integer changes.updated), ("unchanged", .integer changes.unchanged),
      ("withheld", .integer changes.withheld), ("skipped", .integer changes.skipped)]

def TargetChanges.json (changes : TargetChanges) : Json :=
  .object
    [("registered", .integer changes.registered), ("deregistered", .integer changes.deregistered)]

namespace Report

def isSuccess (report : Report) : Bool := report.problems.isEmpty

def addProblem (report : Report) (problem : Problem) : Report :=
  { report with problems := report.problems ++ [problem] }

def addProblems (report : Report) (problems : List Problem) : Report :=
  { report with problems := report.problems ++ problems }

def json (report : Report) : Json :=
  .object
    [("success", .boolean report.isSuccess), ("endpoints", .integer report.endpoints),
      ("descriptors", .integer report.descriptors), ("stacks", report.stackChanges.json),
      ("statuses", report.statusChanges.json), ("targets", report.targetChanges.json),
      ("problems", .list (report.problems.map Problem.json))]

end Report

end IngressControl
