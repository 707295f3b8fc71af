import IngressControl.Files
import IngressControl.Settings.Basic
import IngressControl.Settings.Format
/-!
Loading settings: the record of a file, over it the variables of the environment, and standard
values for the rest.

Whatever keeps settings from being loaded, the failure is the same. Settings that are loaded still
have to keep their limits.
-/

namespace IngressControl

abbrev Environment := List (String × String)

namespace Environment

def get? (environment : Environment) (name : String) : Option String :=
  (environment.reverse.find? fun entry => entry.1 = name).map Prod.snd

def settingStart : String := "albkeeper_"

def listSetting : String := "certificates.pem_directories"

def dotted : List Char → List Char
  | '_' :: '_' :: chars => '.' :: dotted chars
  | char :: chars => char :: dotted chars
  | [] => []

def settingKey? (name : String) : Option String :=
  (Text.afterStart? settingStart (Text.lowered name)).map fun rest =>
    String.ofList (dotted rest.toList)

/-- The value of a variable: a truth value, a number or a text, or texts between commas. -/
def settingValue (key value : String) : Document :=
  match Text.lowered value with
  | "true" => Layer.truth true
  | "false" => Layer.truth false
  | _ =>
      match (Numeral.integer? value.toList).filter Numeral.isInteger with
      | some number => Layer.whole number
      | none =>
          match Numeral.real? value.toList with
          | some number => Layer.real number
          | none =>
              if key = listSetting then Layer.list ((Text.splitAll ',' value).map Layer.text)
              else Layer.text value

def settings (environment : Environment) : List (String × Document) :=
  environment.filterMap fun (name, value) =>
    (settingKey? name).map fun key => (key, settingValue key value)

end Environment

namespace Settings

def extensionOf? (path : String) : Option String := do
  Files.extension? (← (Files.steps path).getLast?)

/-- The paths at which a settings file may be, with the format of each. A file under the path
itself hides those that have an extension added to it. -/
def candidates (path : String) : List (String × Option SettingsFormat) :=
  let start := String.ofList (path.toList.reverse.dropWhile (· = '/')).reverse
  (path, (extensionOf? path).bind SettingsFormat.ofExtension?)
    :: ["yaml", "yml", "toml", "json"].map fun extension =>
        (start ++ "." ++ extension, SettingsFormat.ofExtension? extension)

def textOf (bytes : List UInt8) : String :=
  Utf8.lossy <|
    match bytes with
    | 0xEF :: 0xBB :: 0xBF :: rest => rest
    | bytes => bytes

def fileRecord? (files : Files) : List (String × Option SettingsFormat) →
    Option (List (String × Document))
  | [] => none
  | (path, format) :: rest =>
      match files.read? path with
      | none => fileRecord? files rest
      -- A file of an unknown format hides those behind it all the same.
      | some bytes => do (← format).record? (textOf bytes)

def layers? (files : Files) (path : Option String) (environment : Environment) :
    Option Document := do
  let below ← match path with
    | none => some []
    | some path => fileRecord? files (candidates path)
  return Layer.placeAll (Layer.placeAll (Layer.record []) below) environment.settings

def load (files : Files) (path : Option String) (environment : Environment) :
    Except Failure Settings := do
  let some settings := (layers? files path environment).bind ofDocument? | throw .unloadable
  settings.validate
  return settings

end Settings

end IngressControl
