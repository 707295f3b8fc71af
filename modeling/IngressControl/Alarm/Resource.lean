import IngressControl.Alarm.Basic
import IngressControl.Failure
import IngressControl.Yaml.Reading
/-!
Alarm definitions in a resource of the cluster: each of its texts is a YAML list of them.
-/

namespace IngressControl.AlarmSet

def place (resource : ConfigResource) (key : String) : String :=
  "alarm config " ++ resource.space ++ "/" ++ resource.name ++ " key " ++ key

def ofText (text place : String) : Except Failure AlarmSet :=
  match (Yaml.document? text).bind AlarmSet.ofDocument? with
  | some alarms => .ok alarms
  | none => .error (Failure.yamlText.within place)

/-- The definitions of several texts, in the order of the texts, up to the first that cannot be
read. -/
def ofTexts (resource : ConfigResource) : List (String × String) → Except Failure AlarmSet
  | [] => .ok []
  | (key, text) :: rest => do
      let alarms ← ofText text (place resource key)
      return alarms ++ (← ofTexts resource rest)

def ofResource (resource : ConfigResource) : Except Failure AlarmSet :=
  ofTexts resource resource.data.entries

end IngressControl.AlarmSet
