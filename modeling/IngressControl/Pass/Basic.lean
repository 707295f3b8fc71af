import IngressControl.Alarm.Resource
import IngressControl.Certificate.Store
import IngressControl.Pass.Resolution
import IngressControl.Pass.Stacks
import IngressControl.Pass.Statuses
import IngressControl.Pass.Targets
import IngressControl.Settings.Basic
/-!
One pass of the controller: list endpoints, find their certificates, read the alarms, list the
stacks, place the endpoints, reconcile the stacks, report addresses, clean up orphans and bring the
target groups in line.

Failures are collected in the report. Only a crash of the listing or times that leave the
representable range end a pass without a report; what it has done until then remains.
-/

namespace IngressControl

/-- What ends a pass without a report. -/
inductive Fault where
  | overflow (overflow : TimeOverflow)
  | crash (message : CrashMessage)
  deriving DecidableEq, Repr

def Fault.message : Fault → String
  | .overflow .sum => "`DateTime + TimeDelta` overflowed"
  | .overflow .difference => "`DateTime - TimeDelta` overflowed"
  | .overflow .spanDifference => "`TimeDelta - TimeDelta` overflowed"
  | .crash message => message.getD "unknown panic payload"

def eightDigits (value : Nat) : String :=
  String.ofList <| (List.range 8).reverse.map fun place =>
    Text.hexDigit (value / Nat.pow 16 place % 16)

def numberedName (cluster : String) (created : Nat) : StackName :=
  cluster ++ "-" ++ eightDigits (created + 1)

structure Controller where
  settings : ControllerSettings
  grace : Span
  minAge : Span
  freshName : Nat → StackName

def Controller.ofSettings? (settings : ControllerSettings) : Option Controller := do
  return {
    settings
    grace := ← settings.gracePeriod?
    minAge := ← settings.minAge?
    freshName := numberedName settings.clusterId }

structure World where
  orchestrator : Orchestrator := {}
  cloud : Cloud := {}
  created : Nat := 0

structure Circumstances where
  snapshot : List Certificate
  files : Files
  now : Instant
  createdAt : Instant
  debugs : Bool := false

structure PassResult where
  world : World
  outcome : Except Fault Report
  /-- The requests made to change stacks, in their order; also those that failed. -/
  requests : List StackRequest := []
  granted : List StackRequest := []
  /-- The load balancers with the endpoints placed on them; none if the pass did not come so far. -/
  placement : Placement := {}
  misses : List (EndpointId × Miss) := []

/-- A pass that a time ends early. What was done until then remains. -/
def PassResult.cutShort (orchestrator : Orchestrator) (work : StackWork) (overflow : TimeOverflow) :
    PassResult where
  world := { orchestrator, cloud := work.cloud, created := work.created }
  outcome := .error (.overflow overflow)
  requests := work.requests
  granted := work.granted

namespace Controller

def placementPolicy (controller : Controller) : PlacementPolicy where
  maxCertificates := controller.settings.maxCertificates
  defaultSslPolicy := controller.settings.defaultSslPolicy

def stackPolicy (controller : Controller) (createdAt : Instant) : StackPolicy where
  cluster := controller.settings.clusterId
  grace := controller.grace
  dryRun := controller.settings.dryRun
  freshName := controller.freshName
  createdAt

/-- The alarms of a pass. They are not known when their resource is there but cannot be read, and
there are none when it is not there. -/
def alarms (controller : Controller) (orchestrator : Orchestrator) :
    Option AlarmSet × List Problem :=
  match controller.settings.alarmReference? with
  | none => (some [], [])
  | some (space, name) =>
      let problem (failure : Failure) : Problem :=
        ⟨"alarm config " ++ space ++ "/" ++ name, failure⟩
      match orchestrator.getResource space name with
      | .error failure => if failure.isNotFound then (some [], []) else (none, [problem failure])
      | .ok resource =>
          match AlarmSet.ofResource resource with
          | .ok alarms => (some alarms, [])
          | .error failure => (none, [problem failure])

def act (controller : Controller) (circumstances : Circumstances) (world : World) (report : Report)
    (listed : List Stack) (placement : Placement) : PassResult :=
  let now := circumstances.now
  let dryRun := controller.settings.dryRun
  let policy := controller.stackPolicy circumstances.createdAt
  let report :=
    { report.addProblems placement.problems with descriptors := placement.desired.length }
  match StackWork.reconcileAll policy now { cloud := world.cloud, created := world.created }
      placement.desired with
  | .error (overflow, work) => .cutShort world.orchestrator work overflow
  | .ok work =>
      let report := report.addProblems work.problems
      match StatusWork.reportAll circumstances.debugs dryRun controller.minAge now
          { orchestrator := world.orchestrator } placement.desired with
      | .error (overflow, statuses) => .cutShort statuses.orchestrator work overflow
      | .ok statuses =>
          let report :=
            { report.addProblems statuses.problems with statusChanges := statuses.changes }
          match StackWork.cleanUpAll policy now { work with problems := [] } placement.orphaned with
          | .error (overflow, work) => .cutShort statuses.orchestrator work overflow
          | .ok work =>
              let report := { report.addProblems work.problems with stackChanges := work.changes }
              let targets :=
                TargetWork.sync controller.settings.clusterId dryRun { cloud := work.cloud } listed
              { world :=
                  { orchestrator := statuses.orchestrator
                    cloud := targets.cloud
                    created := work.created }
                outcome :=
                  .ok { report.addProblems targets.problems with targetChanges := targets.changes }
                requests := work.requests
                granted := work.granted }

def process (controller : Controller) (circumstances : Circumstances) (world : World)
    (endpoints : List Endpoint) : PassResult :=
  let now := circumstances.now
  match Resolution.ofEndpoints circumstances.snapshot controller.settings.clusterLocalDomain now {}
      endpoints with
  | .error overflow => { world, outcome := .error (.overflow overflow) }
  | .ok resolution =>
      let (alarms, problems) := controller.alarms world.orchestrator
      let report : Report :=
        { endpoints := endpoints.length, problems := resolution.problems ++ problems }
      match world.cloud.listStacks controller.settings.clusterId with
      | .error failure =>
          { world, outcome := .ok (report.addProblem ⟨"stacks", failure⟩)
            misses := resolution.misses }
      | .ok listed =>
          let placement :=
            Placement.ofStacks controller.placementPolicy listed resolution.resolved alarms now
          { controller.act circumstances world report listed placement with
            placement
            misses := resolution.misses }

def pass (controller : Controller) (circumstances : Circumstances) (world : World) : PassResult :=
  match world.orchestrator.crash with
  | some message => { world, outcome := .error (.crash message) }
  | none =>
      match world.orchestrator.list circumstances.files with
      | .error failure =>
          { world, outcome := .ok (({} : Report).addProblem ⟨"endpoints", failure⟩) }
      | .ok (endpoints, orchestrator) =>
          controller.process circumstances { world with orchestrator } endpoints

end Controller

end IngressControl
