import IngressControl.Settings.Basic
/-!
The command line: flags, options with a value, and the settings that they change.

An option takes its value from behind an equals sign, from the rest of a group of short flags, or
from the next argument unless that starts with a dash. A value of its own argument is checked
when the next flag or option is met, so that an unknown argument is noticed before it.
-/

namespace IngressControl

structure CommandLine where
  config : Option String := none
  clusterId : Option String := none
  endpointsFile : Option String := none
  pollingInterval : Option Nat := none
  dryRun : Bool := false
  once : Bool := false
  verbose : Bool := false
  deriving DecidableEq, Repr

inductive UsageStop where
  | unknownArgument
  | missingValue
  | malformedValue
  | repeated
  | needlessValue
  | help
  | version
  deriving DecidableEq, Repr

def UsageStop.text : UsageStop → String
  | .unknownArgument => "error: unknown argument"
  | .missingValue => "error: an option lacks its value"
  | .malformedValue => "error: a value is no number of seconds"
  | .repeated => "error: an argument is repeated"
  | .needlessValue => "error: a flag takes no value"
  | .help => "help"
  | .version => "version"

namespace CommandLine

inductive Switch where
  | dryRun
  | once
  | verbose
  | help
  | version
  deriving DecidableEq, Repr

inductive Setting where
  | config
  | clusterId
  | endpointsFile
  | pollingInterval
  deriving DecidableEq, Repr

inductive Parameter where
  | switch (switch : Switch)
  | setting (setting : Setting)
  deriving DecidableEq, Repr

def ofLongName? : String → Option Parameter
  | "config" => some (.setting .config)
  | "cluster-id" => some (.setting .clusterId)
  | "endpoints-file" => some (.setting .endpointsFile)
  | "polling-interval" => some (.setting .pollingInterval)
  | "dry-run" => some (.switch .dryRun)
  | "once" => some (.switch .once)
  | "verbose" => some (.switch .verbose)
  | "help" => some (.switch .help)
  | "version" => some (.switch .version)
  | _ => none

def ofShortName? : Char → Option Parameter
  | 'c' => some (.setting .config)
  | 'v' => some (.switch .verbose)
  | 'h' => some (.switch .help)
  | 'V' => some (.switch .version)
  | _ => none

def isGiven (line : CommandLine) : Setting → Bool
  | .config => line.config.isSome
  | .clusterId => line.clusterId.isSome
  | .endpointsFile => line.endpointsFile.isSome
  | .pollingInterval => line.pollingInterval.isSome

/-- Gives an option its value. No path is empty, and seconds fit eight bytes. -/
def assign (line : CommandLine) (setting : Setting) (value : String) :
    Except UsageStop CommandLine :=
  match setting with
  | .config => if value.isEmpty then .error .missingValue else .ok { line with config := some value }
  | .clusterId => .ok { line with clusterId := some value }
  | .endpointsFile => .ok { line with endpointsFile := some value }
  | .pollingInterval =>
      match (Numeral.natural? value.toList).filter (· ≤ Numeral.largestNatural) with
      | some seconds => .ok { line with pollingInterval := some seconds }
      | none => .error .malformedValue

def take (line : CommandLine) (setting : Setting) : Option String → Except UsageStop CommandLine
  | none => .error .missingValue
  | some value => if line.isGiven setting then .error .repeated else line.assign setting value

def turnOn (line : CommandLine) : Switch → Except UsageStop CommandLine
  | .dryRun => if line.dryRun then .error .repeated else .ok { line with dryRun := true }
  | .once => if line.once then .error .repeated else .ok { line with once := true }
  | .verbose => if line.verbose then .error .repeated else .ok { line with verbose := true }
  | .help => .error .help
  | .version => .error .version

structure Pending where
  setting : Setting
  value : Option String
  deriving DecidableEq, Repr

structure Progress where
  line : CommandLine := {}
  pending : Option Pending := none
  deriving DecidableEq, Repr

namespace Progress

def settle (progress : Progress) : Except UsageStop CommandLine :=
  match progress.pending with
  | none => .ok progress.line
  | some pending => progress.line.take pending.setting pending.value

def switch (progress : Progress) (switch : Switch) : Except UsageStop Progress := do
  return { line := ← (← progress.settle).turnOn switch }

/-- Reads an option with the value attached to it. Without one the value may follow. -/
def setting (progress : Progress) (setting : Setting) (attached : Option String) :
    Except UsageStop Progress := do
  let line ← progress.settle
  match attached with
  | some value => return { line := ← line.take setting (some value) }
  | none => return { line, pending := some ⟨setting, none⟩ }

def short (progress : Progress) : List Char → Except UsageStop Progress
  | [] => .ok progress
  | name :: rest =>
      match ofShortName? name with
      | none => .error .unknownArgument
      | some (.switch switch) => do short (← progress.switch switch) rest
      | some (.setting setting) =>
          progress.setting setting <|
            match rest with
            | [] => none
            | '=' :: value => some (String.ofList value)
            | value => some (String.ofList value)

def long (progress : Progress) (text : String) : Except UsageStop Progress :=
  let (name, attached) :=
    match Text.splitOnce? '=' text with
    | some (name, value) => (name, some value)
    | none => (text, none)
  match ofLongName? name with
  | none => .error .unknownArgument
  | some (.setting setting) => progress.setting setting attached
  | some (.switch switch) =>
      if attached.isSome then .error .needlessValue else progress.switch switch

def plain (progress : Progress) (argument : String) : Except UsageStop Progress :=
  match progress.pending with
  | some ⟨setting, none⟩ => .ok { progress with pending := some ⟨setting, some argument⟩ }
  | _ => .error .unknownArgument

def argument (progress : Progress) (argument : String) : Except UsageStop Progress :=
  match argument.toList with
  | '-' :: '-' :: name => progress.long (String.ofList name)
  | '-' :: first :: rest => progress.short (first :: rest)
  | _ => progress.plain argument

/-- Reads arguments one after the other. None may follow a double dash. -/
def arguments (progress : Progress) : List String → Except UsageStop Progress
  | [] => .ok progress
  | next :: rest =>
      if next = "--" then if rest.isEmpty then .ok progress else .error .unknownArgument
      else do arguments (← progress.argument next) rest

end Progress

def helpText : String :=
  "Keeps cloud load-balancer stacks converged with cluster ingress endpoints\n\n"
    ++ "Usage: albkeeper [OPTIONS]\n\nOptions:\n"
    ++ "  -c, --config <CONFIG>             Settings file\n"
    ++ "      --cluster-id <CLUSTER_ID>     Cluster whose stacks are kept\n"
    ++ "      --endpoints-file <FILE>       Manifest with endpoints and resources\n"
    ++ "      --polling-interval <SECONDS>  Seconds between passes\n"
    ++ "      --dry-run                     Decide without changing anything\n"
    ++ "      --once                        Make a single pass and exit\n"
    ++ "  -v, --verbose                     Enable debug logging\n"
    ++ "  -h, --help                        Print help\n"
    ++ "  -V, --version                     Print version\n"

def configVariable : String := "ALBKEEPER_CONFIG_FILE"

def ofArguments (arguments : List String) (configFile : Option String) :
    Except UsageStop CommandLine := do
  let line ← (← Progress.arguments {} arguments).settle
  match line.config, configFile with
  | none, some path => line.assign .config path
  | _, _ => return line

def apply (line : CommandLine) (settings : Settings) : Settings :=
  let { controller, observability, .. } := settings
  { settings with
    controller :=
      { controller with
        clusterId := line.clusterId.getD controller.clusterId
        endpointsFile := line.endpointsFile <|> controller.endpointsFile
        pollingIntervalSeconds := line.pollingInterval.getD controller.pollingIntervalSeconds
        dryRun := line.dryRun || controller.dryRun }
    observability :=
      { observability with
        logLevel := if line.verbose then "debug" else observability.logLevel } }

def json (line : CommandLine) : Json :=
  .object
    [("config", .optional line.config),
      ("cluster_id", .optional line.clusterId),
      ("endpoints_file", .optional line.endpointsFile),
      ("polling_interval", line.pollingInterval.elim .null fun seconds => .integer seconds),
      ("dry_run", .boolean line.dryRun),
      ("once", .boolean line.once),
      ("verbose", .boolean line.verbose)]

end CommandLine

end IngressControl
