import IngressControl.Certificate.Encoded
import IngressControl.Certificate.Selection
import IngressControl.Files
import IngressControl.Settings.Basic
/-!
Sources of certificates, and the snapshot taken from all of them.

A refresh asks every source and takes over the certificates of all, in the order of the sources;
if one of them fails the snapshot stays as it is.
-/

namespace IngressControl

inductive CertificateSource where
  | fixed (name : String) (certificates : List Certificate)
  | failing (name : String) (failure : Failure)
  | directory (path : String)
  deriving DecidableEq, Repr

structure SkippedFile where
  path : String
  failure : Failure
  deriving DecidableEq, Repr

structure Batch where
  certificates : List Certificate
  skipped : List SkippedFile := []
  deriving DecidableEq, Repr

namespace CertificateSource

def name : CertificateSource → String
  | .fixed name _ => name
  | .failing name _ => name
  | .directory path => "pem:" ++ path

def isCertificateFile (name : String) : Bool :=
  (Files.extension? name).any fun extension => extension = "pem" || extension = "crt"

/-- Reads certificate files, passing over those that hold none. -/
def readFiles (directory : String) : List (String × List UInt8) → Batch
  | [] => ⟨[], []⟩
  | (name, content) :: rest =>
      let path := Files.join directory name
      let batch := readFiles directory rest
      match Certificate.ofFile path content with
      | .ok certificate => { batch with certificates := certificate :: batch.certificates }
      | .error failure => { batch with skipped := ⟨path, failure⟩ :: batch.skipped }

def answer (files : Files) : CertificateSource → Except Failure Batch
  | .fixed _ certificates => .ok { certificates }
  | .failing _ failure => .error failure
  | .directory path =>
      match files.list? path with
      | some entries => .ok (readFiles path (entries.filter fun entry => isCertificateFile entry.1))
      | none => .error (Failure.file.within ("read " ++ path))

/-- The failure as one of this source, unless it is one of a source already. -/
def blame (source : CertificateSource) : Failure → Failure
  | .certificateSource name message => .certificateSource name message
  | failure => .certificateSource source.name failure.message

def ofSettings (settings : CertificateSettings) : List CertificateSource :=
  (if settings.staticCertificates.isEmpty then []
    else [.fixed "static" settings.staticCertificates])
    ++ settings.pemDirectories.map .directory

end CertificateSource

structure CertificateStore where
  sources : List CertificateSource
  snapshot : List Certificate := []
  deriving DecidableEq, Repr

namespace CertificateStore

/-- The batches of all sources in order, or the failure of the first one that fails. -/
def gather : List (CertificateSource × Except Failure Batch) → Except Failure (List Batch)
  | [] => .ok []
  | (source, answer) :: rest => do
      let batch ← answer.mapError source.blame
      return batch :: (← gather rest)

/-- Takes over what the sources have answered, unless one of them has failed. -/
def settle (store : CertificateStore) (answers : List (Except Failure Batch)) :
    Except Failure CertificateStore := do
  let batches ← gather (store.sources.zip answers)
  return { store with snapshot := batches.flatMap Batch.certificates }

def refresh (store : CertificateStore) (files : Files) : Except Failure CertificateStore :=
  store.settle (store.sources.map (CertificateSource.answer files))

def skipped (store : CertificateStore) (files : Files) : List SkippedFile :=
  store.sources.flatMap fun source => ((source.answer files).toOption.map Batch.skipped).getD []

def find (store : CertificateStore) (hostname : String) (now : Instant) :
    Except TimeOverflow (Except Failure Certificate) :=
  Certificate.best store.snapshot hostname now

end CertificateStore

end IngressControl
