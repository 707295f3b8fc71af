import IngressControl.Certificate.Basic
import IngressControl.Failure
import IngressControl.Settings.SslPolicy
import IngressControl.Text.Blank
/-!
The settings of the controller, their standard values and the limits they must keep.
-/

namespace IngressControl

structure ControllerSettings where
  clusterId : String := "default"
  pollingIntervalSeconds : Nat := 30
  certRefreshIntervalSeconds : Nat := 1800
  maxCertificates : Nat := 25
  deletionGraceSeconds : Nat := 3600
  minLoadBalancerAgeSeconds : Nat := 360
  defaultSslPolicy : String := "ELBSecurityPolicy-2016-08"
  defaultLoadBalancerType : LoadBalancerType := .application
  defaultAddressFamily : AddressFamily := .ipv4
  clusterLocalDomain : String := ".cluster.local"
  alarmConfig : Option String := none
  maxConsecutiveFailures : Nat := 5
  dryRun : Bool := false
  endpointsFile : Option String := none
  deriving DecidableEq, Repr

structure CertificateSettings where
  pemDirectories : List String := []
  staticCertificates : List Certificate := []
  deriving DecidableEq, Repr

structure ObservabilitySettings where
  enableMetrics : Bool := true
  metricsPort : Nat := 9090
  serviceName : String := "albkeeper"
  logLevel : String := "info"
  jsonLogging : Bool := false
  deriving DecidableEq, Repr

structure Settings where
  controller : ControllerSettings := {}
  certificates : CertificateSettings := {}
  observability : ObservabilitySettings := {}
  deriving DecidableEq, Repr

def asSigned (value : Nat) : Int :=
  if value < 0x8000000000000000 then value else (value : Int) - 0x10000000000000000

structure Violation where
  field : String
  message : String
  deriving DecidableEq, Repr

def Violation.text (violation : Violation) : String := violation.field ++ ": " ++ violation.message

def limit (kept : Bool) (field message : String) : List Violation :=
  if kept then [] else [⟨field, message⟩]

namespace ControllerSettings

def gracePeriod? (settings : ControllerSettings) : Option Span :=
  Span.seconds? (asSigned settings.deletionGraceSeconds)

def minAge? (settings : ControllerSettings) : Option Span :=
  Span.seconds? (asSigned settings.minLoadBalancerAgeSeconds)

def alarmReference? (settings : ControllerSettings) : Option (String × String) := do
  let (space, name) ← Text.splitOnce? '/' (← settings.alarmConfig)
  guard (!space.isEmpty && !name.isEmpty && !name.toList.contains '/')
  return (space, name)

def violations (settings : ControllerSettings) : List Violation :=
  limit (!settings.clusterId.isEmpty) "cluster_id" "Cluster id cannot be empty"
    ++ limit (1 ≤ settings.pollingIntervalSeconds ∧ settings.pollingIntervalSeconds ≤ 3600)
        "polling_interval_seconds" "Polling interval must be between 1 and 3600 seconds"
    ++ limit (1 ≤ settings.certRefreshIntervalSeconds) "cert_refresh_interval_seconds"
        "Certificate refresh interval must be at least 1 second"
    ++ limit (1 ≤ settings.maxCertificates ∧ settings.maxCertificates ≤ 25)
        "max_certs_per_load_balancer" "Certificates per load balancer must be between 1 and 25"
    ++ limit (!settings.defaultSslPolicy.isEmpty) "default_ssl_policy"
        "Default SSL policy cannot be empty"
    ++ limit (1 ≤ settings.maxConsecutiveFailures) "max_consecutive_failures"
        "Max consecutive failures must be at least 1"

def ofDocument? (document : Document) : Option ControllerSettings := do
  let [clusterId, pollingIntervalSeconds, certRefreshIntervalSeconds, maxCertificates,
      deletionGraceSeconds, minLoadBalancerAgeSeconds, defaultSslPolicy, defaultLoadBalancerType,
      defaultAddressFamily, clusterLocalDomain, alarmConfig, maxConsecutiveFailures, dryRun,
      endpointsFile] ← document.fields?
        ["cluster_id", "polling_interval_seconds", "cert_refresh_interval_seconds",
          "max_certs_per_load_balancer", "deletion_grace_period_seconds",
          "min_load_balancer_age_seconds", "default_ssl_policy", "default_load_balancer_type",
          "default_ip_address_type", "cluster_local_domain", "alarm_config",
          "max_consecutive_failures", "dry_run", "endpoints_file"] | none
  let standard : ControllerSettings := {}
  return {
    clusterId := ← clusterId.orElse standard.clusterId Document.text?
    pollingIntervalSeconds :=
      ← pollingIntervalSeconds.orElse standard.pollingIntervalSeconds (Document.natural? 64)
    certRefreshIntervalSeconds :=
      ← certRefreshIntervalSeconds.orElse standard.certRefreshIntervalSeconds
          (Document.natural? 64)
    maxCertificates := ← maxCertificates.orElse standard.maxCertificates (Document.natural? 64)
    deletionGraceSeconds :=
      ← deletionGraceSeconds.orElse standard.deletionGraceSeconds (Document.natural? 64)
    minLoadBalancerAgeSeconds :=
      ← minLoadBalancerAgeSeconds.orElse standard.minLoadBalancerAgeSeconds (Document.natural? 64)
    defaultSslPolicy := ← defaultSslPolicy.orElse standard.defaultSslPolicy Document.text?
    defaultLoadBalancerType :=
      ← defaultLoadBalancerType.orElse standard.defaultLoadBalancerType Choice.ofDocument?
    defaultAddressFamily :=
      ← defaultAddressFamily.orElse standard.defaultAddressFamily Choice.ofDocument?
    clusterLocalDomain := ← clusterLocalDomain.orElse standard.clusterLocalDomain Document.text?
    alarmConfig := ← alarmConfig.optionalOr Document.text?
    maxConsecutiveFailures :=
      ← maxConsecutiveFailures.orElse standard.maxConsecutiveFailures (Document.natural? 32)
    dryRun := ← dryRun.orElse standard.dryRun Document.flag?
    endpointsFile := ← endpointsFile.optionalOr Document.text? }

def json (settings : ControllerSettings) : Json :=
  .object
    [("cluster_id", .text settings.clusterId),
      ("polling_interval_seconds", .integer settings.pollingIntervalSeconds),
      ("cert_refresh_interval_seconds", .integer settings.certRefreshIntervalSeconds),
      ("max_certs_per_load_balancer", .integer settings.maxCertificates),
      ("deletion_grace_period_seconds", .integer settings.deletionGraceSeconds),
      ("min_load_balancer_age_seconds", .integer settings.minLoadBalancerAgeSeconds),
      ("default_ssl_policy", .text settings.defaultSslPolicy),
      ("default_load_balancer_type", Choice.json settings.defaultLoadBalancerType),
      ("default_ip_address_type", Choice.json settings.defaultAddressFamily),
      ("cluster_local_domain", .text settings.clusterLocalDomain),
      ("alarm_config", .optional settings.alarmConfig),
      ("max_consecutive_failures", .integer settings.maxConsecutiveFailures),
      ("dry_run", .boolean settings.dryRun),
      ("endpoints_file", .optional settings.endpointsFile)]

end ControllerSettings

namespace CertificateSettings

def sourceCount (settings : CertificateSettings) : Nat :=
  settings.pemDirectories.length + if settings.staticCertificates.isEmpty then 0 else 1

def ofDocument? (document : Document) : Option CertificateSettings := do
  let [pemDirectories, staticCertificates] ←
    document.fields? ["pem_directories", "static_certificates"] | none
  return {
    pemDirectories := ← pemDirectories.orElse [] (Document.list? Document.text?)
    staticCertificates := ← staticCertificates.orElse [] (Document.list? Certificate.ofDocument?) }

def json (settings : CertificateSettings) : Json :=
  .object
    [("pem_directories", .texts settings.pemDirectories),
      ("static_certificates", .list (settings.staticCertificates.map Certificate.json))]

end CertificateSettings

namespace ObservabilitySettings

/-- The address that metrics are served at. Port zero serves none. -/
def metricsAddress? (settings : ObservabilitySettings) : Option String :=
  if settings.metricsPort = 0 then none else some ("0.0.0.0:" ++ toString settings.metricsPort)

def violations (settings : ObservabilitySettings) : List Violation :=
  limit (!settings.serviceName.isEmpty) "service_name" "Service name cannot be empty"
    ++ limit (!settings.logLevel.isEmpty) "log_level" "Log level cannot be empty"

def ofDocument? (document : Document) : Option ObservabilitySettings := do
  let [enableMetrics, metricsPort, serviceName, logLevel, jsonLogging] ← document.fields?
    ["enable_metrics", "metrics_port", "service_name", "log_level", "json_logging"] | none
  let standard : ObservabilitySettings := {}
  return {
    enableMetrics := ← enableMetrics.orElse standard.enableMetrics Document.flag?
    metricsPort := ← metricsPort.orElse standard.metricsPort (Document.natural? 16)
    serviceName := ← serviceName.orElse standard.serviceName Document.text?
    logLevel := ← logLevel.orElse standard.logLevel Document.text?
    jsonLogging := ← jsonLogging.orElse standard.jsonLogging Document.flag? }

def json (settings : ObservabilitySettings) : Json :=
  .object
    [("enable_metrics", .boolean settings.enableMetrics),
      ("metrics_port", .integer settings.metricsPort),
      ("service_name", .text settings.serviceName),
      ("log_level", .text settings.logLevel),
      ("json_logging", .boolean settings.jsonLogging)]

end ObservabilitySettings

namespace Settings

/-- Checks the settings. Limits of single fields come first; whichever is broken, the failure is
the same. -/
def validate (settings : Settings) : Except Failure Unit :=
  let controller := settings.controller
  if !(controller.violations.isEmpty && settings.observability.violations.isEmpty) then
    .error (.validation "Validation failed: " none)
  else if (Text.trimmed controller.clusterId).isEmpty then
    .error (.invalidField "Cluster id cannot be blank" "cluster_id")
  else if !isKnownSslPolicy controller.defaultSslPolicy then
    .error (.invalidField ("Unknown SSL policy '" ++ controller.defaultSslPolicy ++ "'")
      "default_ssl_policy")
  else
    match controller.alarmConfig with
    | none => .ok ()
    | some reference =>
        if controller.alarmReference?.isSome then .ok ()
        else
          .error (.invalidField ("Alarm config '" ++ reference ++ "' must be <namespace>/<name>")
            "alarm_config")

def ofDocument? (document : Document) : Option Settings := do
  let [controller, certificates, observability] ←
    document.fields? ["controller", "certificates", "observability"] | none
  return {
    controller := ← controller.orElse {} ControllerSettings.ofDocument?
    certificates := ← certificates.orElse {} CertificateSettings.ofDocument?
    observability := ← observability.orElse {} ObservabilitySettings.ofDocument? }

def json (settings : Settings) : Json :=
  .object
    [("controller", settings.controller.json),
      ("certificates", settings.certificates.json),
      ("observability", settings.observability.json)]

end Settings

end IngressControl
