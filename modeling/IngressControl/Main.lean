import IngressControl.Program
import Std.Time.DateTime.Timestamp
/-!
The command: takes what the program needs from the system, runs it and prints what it says.
-/

namespace IngressControl.Command

def now : IO Instant := do
  let nanos := (← Std.Time.Timestamp.now).toNanosecondsSinceUnixEpoch.val
  return ⟨nanos / 1000000000, (nanos % 1000000000).toNat⟩

def addFile (files : Files) (path : String) : IO Files := do
  try return files.write path (← IO.FS.readBinFile path).toList
  catch _ => return files

def addDirectory (files : Files) (path : String) : IO Files := do
  try
    let directory ← IO.FS.realPath path
    let entries ← directory.readDir
    entries.foldlM (fun files entry => addFile files (Files.join path entry.fileName))
      (files.addDirectory path)
  catch _ => return files

def environment : IO Environment := do
  try
    let block := Utf8.lossy (← IO.FS.readBinFile "/proc/self/environ").toList
    return (Text.splitAll '\x00' block).filterMap (Text.splitOnce? '=')
  catch _ => return []

def watched (start : Program.Start) : IO Files := do
  let files ← start.endpointsFile?.toList.foldlM addFile {}
  start.settings.certificates.pemDirectories.foldlM addDirectory files

def print (start : Program.Start) (events : List Event) : IO Unit := do
  for event in start.shown events do
    IO.println (if start.settings.observability.jsonLogging then event.json.compact else event.line)
  (← IO.getStdout).flush

partial def keepPassing (start : Program.Start) (controller : Controller)
    (store : CertificateStore) (world : World) (tracker : FailureTracker) (refreshed : Nat) :
    IO Unit := do
  let files ← watched start
  let uptime ← IO.monoMsNow
  let isDue := start.settings.controller.certRefreshIntervalSeconds * 1000 ≤ uptime - refreshed
  let store := if isDue then (store.refresh files).toOption.getD store else store
  let stride := Loop.step controller (start.circumstances store files (← now)) tracker world
  print start stride.events
  IO.sleep (start.settings.controller.pollingIntervalSeconds * 1000).toUInt32
  keepPassing start controller store stride.world stride.tracker (if isDue then uptime else refreshed)

def finish (ending : Ending) : IO UInt32 := do
  for complaint in ending.complaints do
    IO.eprintln complaint.text
  return ending.status.toUInt32

def run (start : Program.Start) : IO UInt32 := do
  let files ← watched start
  if start.line.once then
    let ending := start.run files (← now)
    print start ending.events
    finish ending
  else
    let { store, world, events } := start.setup files
    print start events
    match Controller.ofSettings? start.settings.controller with
    | none => finish (start.ending Program.crashed [])
    | some controller =>
        print start [Loop.started controller.settings]
        keepPassing start controller store world (Loop.freshTracker controller.settings)
          (← IO.monoMsNow)
        finish (start.ending 0 [])

end IngressControl.Command

open IngressControl in
def main (arguments : List String) : IO UInt32 := do
  let files ← Command.addFile {} Program.variableFile
  let invocation : Invocation := { arguments, environment := ← Command.environment, files }
  match Program.commandLine invocation with
  | .error .help => IO.print CommandLine.helpText
  | .error .version => IO.print Program.versionText
  | .error stop => IO.eprintln stop.text
  | .ok _ => pure ()
  let config := (Program.commandLine invocation).toOption.bind CommandLine.config
  let candidates := config.toList.flatMap fun path => (Settings.candidates path).map Prod.fst
  let files ← candidates.foldlM Command.addFile files
  match Program.start { invocation with files } with
  | .error ending => Command.finish ending
  | .ok start => Command.run start
