import IngressControl.CommandLine
import IngressControl.Log.Filter
import IngressControl.Loop
import IngressControl.Settings.VariableFile
/-!
The program from its arguments to its end: what it logs, what it complains about and the status
that it ends with.

Variables of a file count as long as the environment lacks them. The command line lies over the
settings that are loaded, and what comes of both has to keep the limits again.
-/

namespace IngressControl

structure Invocation where
  arguments : List String
  environment : Environment
  files : Files

inductive Complaint where
  | variableFile
  | loading
  | overriding
  deriving DecidableEq, Repr

def Complaint.text : Complaint → String
  | .variableFile => "Warning: Error loading .env file"
  | .loading => "Error: failed to load configuration"
  | .overriding => "Error: invalid configuration after command line overrides"

structure Ending where
  status : Nat
  complaints : List Complaint := []
  events : List Event := []

namespace Program

def name : String := "albkeeper"

def version : String := "0.1.0"

def versionText : String := name ++ " " ++ version ++ "\n"

def variableFile : String := ".env"

def crashed : Nat := 101

def usageStatus : UsageStop → Nat
  | .help => 0
  | .version => 0
  | _ => 2

structure Start where
  line : CommandLine
  settings : Settings
  filter : LogFilter
  complaints : List Complaint

/-- The environment with the variables of the file, and what there is to complain about. -/
def surroundings (invocation : Invocation) : Environment × List Complaint :=
  match invocation.files.read? variableFile with
  | none => (invocation.environment, [])
  | some bytes =>
      let (environment, isWhole) := VariableFile.load invocation.environment bytes
      (environment, if isWhole then [] else [.variableFile])

def commandLine (invocation : Invocation) : Except UsageStop CommandLine :=
  let (environment, _) := surroundings invocation
  CommandLine.ofArguments invocation.arguments (environment.get? CommandLine.configVariable)

def start (invocation : Invocation) : Except Ending Start := do
  let (environment, complaints) := surroundings invocation
  let line ← match commandLine invocation with
    | .error stop => throw { status := usageStatus stop, complaints }
    | .ok line => pure line
  let loaded ← match Settings.load invocation.files line.config environment with
    | .error _ => throw { status := 1, complaints := complaints ++ [.loading] }
    | .ok loaded => pure loaded
  let settings := line.apply loaded
  if let .error _ := settings.validate then
    throw { status := 1, complaints := complaints ++ [.overriding] }
  let filter :=
    LogFilter.ofVariable (environment.get? "RUST_LOG") settings.observability.logLevel
  return { line, settings, filter, complaints }

def event (level : Level) (message : String) (fields : List (String × Json)) : Event :=
  { level, target := name, message, fields }

def configured (settings : Settings) : Event :=
  let { controller, certificates, observability } := settings
  { level := .info
    target := "albkeeper::observability::logging"
    message := "albkeeper controller configuration"
    fields :=
      [("cluster_id", .text controller.clusterId),
        ("polling_interval_seconds", .integer controller.pollingIntervalSeconds),
        ("max_certs_per_load_balancer", .integer controller.maxCertificates),
        ("deletion_grace_period_seconds", .integer controller.deletionGraceSeconds),
        ("min_load_balancer_age_seconds", .integer controller.minLoadBalancerAgeSeconds),
        ("default_ssl_policy", .text controller.defaultSslPolicy),
        ("dry_run", .boolean controller.dryRun),
        ("certificate_sources", .integer certificates.sourceCount),
        ("metrics_enabled", .text (if observability.enableMetrics then "true" else "false"))] }

def skipped (file : SkippedFile) : Event :=
  { level := .warn
    target := "albkeeper::certificates::pem"
    message := "Skipping certificate file"
    fields := [("path", .text file.path), ("error", .text file.failure.message)] }

def refreshed : Except Failure CertificateStore → Event
  | .ok store => event .info "Loaded certificates" [("certificates", .integer store.snapshot.length)]
  | .error failure =>
      event .warn "Initial certificate refresh failed, starting with an empty snapshot"
        [("error", .text failure.message)]

def unknownPolicy (id : EndpointId) (policy : String) : Event :=
  { level := .warn
    target := "albkeeper::provider::manifest"
    message := "Ignoring unknown SSL policy"
    fields := [("endpoint", .text id.text), ("ssl_policy", .text policy)] }

def manifestEvents (orchestrator : Orchestrator) (files : Files) : List Event :=
  match orchestrator.manifest with
  | none => []
  | some (path, _) =>
      match Orchestrator.loadManifest files path with
      | .error _ => []
      | .ok manifest =>
          manifest.endpoints.filterMap fun entry => entry.unknownPolicy?.map (unknownPolicy entry.id)

def missed (id : EndpointId) (miss : Miss) : Event :=
  { level := .warn
    target := Loop.origin
    message := "Certificate resolution failed"
    fields :=
      [("endpoint", .text id.text), ("hostname", .text miss.hostname),
        ("error", .text miss.failure.message)] }

def stopped : Event := event .info "albkeeper stopped" []

structure Setup where
  store : CertificateStore
  world : World
  events : List Event

namespace Start

def endpointsFile? (start : Start) : Option String := start.settings.controller.endpointsFile

def opening (start : Start) : List Event :=
  [event .info "Starting albkeeper" [("app_name", .text name), ("version", .text version)],
    configured start.settings]

def certificates (start : Start) (files : Files) : CertificateStore × List Event :=
  let store : CertificateStore :=
    { sources := CertificateSource.ofSettings start.settings.certificates }
  let refresh := store.refresh files
  (refresh.toOption.getD store, (store.skipped files).map skipped ++ [refreshed refresh])

def world (start : Start) : World × List Event :=
  match start.endpointsFile? with
  | some path =>
      ({ orchestrator := { manifest := some (path, .ofSettings start.settings.controller) } }, [])
  | none =>
      ({}, [event .warn "No endpoints file configured, the controller will see no endpoints" []])

def setup (start : Start) (files : Files) : Setup :=
  let (store, certificateEvents) := start.certificates files
  let (world, worldEvents) := start.world
  { store, world, events := start.opening ++ certificateEvents ++ worldEvents }

/-- What a pass finds at a moment. The log shows what is said of the pass by where it is said. -/
def circumstances (start : Start) (store : CertificateStore) (files : Files) (now : Instant) :
    Circumstances where
  snapshot := store.snapshot
  files
  now
  createdAt := now
  debugs := start.filter.shows .debug Loop.origin

def shown (start : Start) (events : List Event) : List Event :=
  events.filter fun event => start.filter.shows event.level event.target

def working (files : Files) (world : World) (result : PassResult) : List Event :=
  manifestEvents world.orchestrator files ++ result.misses.map fun (id, miss) => missed id miss

def ending (start : Start) (status : Nat) (events : List Event) : Ending where
  status
  complaints := start.complaints
  events := start.shown events

def run (start : Start) (files : Files) (now : Instant) : Ending :=
  let { store, world, events } := start.setup files
  match Controller.ofSettings? start.settings.controller with
  | none => start.ending crashed events
  | some controller =>
      let result := controller.pass (start.circumstances store files now) world
      let events := events ++ working files world result
      match result.outcome with
      | .error _ => start.ending crashed events
      | .ok report => start.ending 0 (events ++ report.events ++ [stopped])

end Start

def run (invocation : Invocation) (now : Instant) : Ending :=
  match start invocation with
  | .error ending => ending
  | .ok start => start.run invocation.files now

end Program

end IngressControl
