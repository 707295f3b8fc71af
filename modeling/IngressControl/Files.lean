import IngressControl.Table
import IngressControl.Text.Cut
import IngressControl.Text.Utf8
/-!
Files of a system, by their paths.

Relative paths start in one working directory. Empty steps and single dots in a path lead
nowhere, and a double dot leads out of a directory that is there. Whatever lies on the way to a
file is a directory.
-/

namespace IngressControl

structure Files where
  contents : Table String (List UInt8) := {}
  directories : KeySet String := {}
  deriving DecidableEq

namespace Files

/-- The steps of a path. One from the root of the system starts with an empty step. -/
def steps (path : String) : List String :=
  let named := (Text.splitAll '/' path).filter fun step => !step.isEmpty && step != "."
  if Text.startsWith "/" path then "" :: named else named

def ofSteps : List String → String
  | [""] => "/"
  | steps => String.intercalate "/" steps

def ancestors (before : List String) : List String → List String
  | [] => []
  | [_] => []
  | step :: rest => ofSteps (before ++ [step]) :: ancestors (before ++ [step]) rest

def follow? (files : Files) (taken : List String) : List String → Option (List String)
  | [] => some taken.reverse
  | step :: rest =>
      if step = ".." then
        match taken with
        -- What lies above the working directory keeps its double dots.
        | [] => follow? files [step] rest
        | ".." :: above => follow? files (step :: ".." :: above) rest
        -- The root lies in itself.
        | "" :: above => follow? files ("" :: above) rest
        | _ :: above => do
            guard (files.directories.contains (ofSteps taken.reverse))
            follow? files above rest
      else follow? files (step :: taken) rest

/-- The plain form of a path to look up. The empty path leads nowhere. -/
def plainPath? (files : Files) (path : String) : Option String := do
  guard !path.isEmpty
  return ofSteps (← files.follow? [] (steps path))

def write (files : Files) (path : String) (content : List UInt8) : Files where
  contents := files.contents.insert (ofSteps (steps path)) content
  directories := KeySet.addAll files.directories (ancestors [] (steps path))

def addDirectory (files : Files) (path : String) : Files :=
  { files with
    directories :=
      KeySet.addAll files.directories (ancestors [] (steps path) ++ [ofSteps (steps path)]) }

def remove (files : Files) (path : String) : Files :=
  { files with contents := files.contents.erase (ofSteps (steps path)) }

/-- The content of a file. A path that ends in a slash names no file. -/
def read? (files : Files) (path : String) : Option (List UInt8) := do
  guard (!Text.endsWith "/" path && !Text.endsWith "/." path)
  files.contents.get? (← files.plainPath? path)

def readText? (files : Files) (path : String) : Option String := do
  Utf8.decode? (← files.read? path)

def list? (files : Files) (path : String) : Option (List (String × List UInt8)) := do
  let directory ← files.plainPath? path
  let isRoot := directory.isEmpty || directory = "/"
  guard (isRoot || files.directories.contains directory)
  let start := if isRoot then directory else directory ++ "/"
  return files.contents.entries.filterMap fun (name, content) => do
    let rest ← Text.afterStart? start name
    guard (!rest.toList.contains '/')
    return (rest, content)

def join (directory name : String) : String :=
  if Text.endsWith "/" directory then directory ++ name else directory ++ "/" ++ name

/-- What follows the last dot of a file name. A dot in front of all else does not count. -/
def extension? (name : String) : Option String :=
  match name.toList.reverse.span (· ≠ '.') with
  | (_, []) => none
  | (_, [_]) => none
  | (reversed, _) => some (String.ofList reversed.reverse)

end Files

end IngressControl
