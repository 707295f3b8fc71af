import IngressControl.Log.Event
import IngressControl.Pass.Basic
/-!
Passes one after the other, and what the log says about them.

A pass that ends without a report or reports a problem counts as failed. Failures in a row are
counted, and from a threshold on they are logged as errors.
-/

namespace IngressControl

structure FailureTracker where
  threshold : Nat
  consecutive : Nat := 0
  deriving DecidableEq, Repr

namespace FailureTracker

/-- Counts a pass. The count stops at the greatest number of four bytes. -/
def observe (tracker : FailureTracker) (failed : Bool) : FailureTracker :=
  { tracker with
    consecutive := if failed then min (tracker.consecutive + 1) 0xFFFFFFFF else 0 }

def isEscalated (tracker : FailureTracker) : Bool := tracker.threshold ≤ tracker.consecutive

end FailureTracker

namespace Report

def origin : String := "albkeeper::services::report"

def events (report : Report) : List Event :=
  report.problems.map
      (fun problem =>
        { level := .warn, target := origin, message := "Pass problem"
          fields :=
            [("scope", .text problem.scope), ("kind", .text problem.failure.kind),
              ("error", .text problem.failure.message)] })
    ++ [{ level := .info, target := origin, message := "Reconciliation pass finished"
          fields :=
            [("endpoints", .integer report.endpoints),
              ("load_balancers", .integer report.descriptors),
              ("created", .integer report.stackChanges.created),
              ("updated", .integer report.stackChanges.updated),
              ("scheduled", .integer report.stackChanges.scheduled),
              ("deleted", .integer report.stackChanges.deleted),
              ("statuses_updated", .integer report.statusChanges.updated),
              ("statuses_withheld", .integer report.statusChanges.withheld),
              ("targets_registered", .integer report.targetChanges.registered),
              ("targets_deregistered", .integer report.targetChanges.deregistered),
              ("problems", .integer report.problems.length)] }]

end Report

namespace Loop

def origin : String := "albkeeper::services::driver"

def started (settings : ControllerSettings) : Event where
  level := .info
  target := origin
  message := "Starting reconciliation loop"
  fields :=
    [("cluster_id", .text settings.clusterId),
      ("interval_seconds", .integer settings.pollingIntervalSeconds),
      ("dry_run", .boolean settings.dryRun)]

def stopped : Event where
  level := .info
  target := origin
  message := "Shutdown requested, stopping reconciliation loop"

def passEvents : Except Fault Report → List Event
  | .ok report => report.events
  | .error fault =>
      [{ level := .error, target := origin, message := "Reconciliation pass panicked"
         fields := [("panic", .text fault.message)] }]

def hasFailed : Except Fault Report → Bool
  | .ok report => !report.isSuccess
  | .error _ => true

def streakEvents (tracker : FailureTracker) : List Event :=
  let fields : List (String × Json) := [("consecutive_failures", .integer tracker.consecutive)]
  if tracker.isEscalated then
    [{ level := .error, target := origin, message := "Reconciliation keeps failing", fields }]
  else if 0 < tracker.consecutive then
    [{ level := .warn, target := origin, message := "Reconciliation pass failed", fields }]
  else []

structure Stride where
  world : World
  tracker : FailureTracker
  events : List Event

def step (controller : Controller) (circumstances : Circumstances) (tracker : FailureTracker)
    (world : World) : Stride :=
  let result := controller.pass circumstances world
  let tracker := tracker.observe (hasFailed result.outcome)
  { world := result.world, tracker, events := passEvents result.outcome ++ streakEvents tracker }

def passes (controller : Controller) (circumstances : Circumstances) (tracker : FailureTracker)
    (world : World) : Nat → World × List Event
  | 0 => (world, [])
  | count + 1 =>
      let stride := step controller circumstances tracker world
      let (world, events) := passes controller circumstances stride.tracker stride.world count
      (world, stride.events ++ events)

def freshTracker (settings : ControllerSettings) : FailureTracker :=
  { threshold := settings.maxConsecutiveFailures }

/-- Runs until a shutdown arrives after so many passes; one is made in any case. -/
def run (controller : Controller) (circumstances : Circumstances) (world : World) (count : Nat) :
    World × List Event :=
  let tracker := freshTracker controller.settings
  let (world, events) := passes controller circumstances tracker world (max count 1)
  (world, started controller.settings :: events ++ [stopped])

end Loop

end IngressControl
