import IngressControl.Endpoint.Record
import IngressControl.Json.Writer
import IngressControl.Digest.Sha256
/-!
Alarms attached to load balancers, and the digest by which a change of them is noticed.

The digest is taken of the compact JSON text of the definitions, in which members that say
nothing are left out.
-/

namespace IngressControl

structure AlarmDimension where
  name : String
  value : String
  deriving DecidableEq, Repr

structure AlarmDefinition where
  alarmName : String
  description : Option String := none
  metricName : String
  space : String := "AWS/ApplicationELB"
  statistic : String
  period : Nat
  evaluationPeriods : Nat
  threshold : Binary64
  comparison : String
  dimensions : List AlarmDimension := []
  actions : List String := []
  missingData : Option String := none
  deriving DecidableEq, Repr

abbrev AlarmSet := List AlarmDefinition

structure ConfigResource where
  space : String
  name : String
  data : Table String String := {}
  deriving DecidableEq

namespace AlarmDimension

def ofDocument? (document : Document) : Option AlarmDimension := do
  let [name, value] ← document.fields? ["Name", "Value"] | none
  return { name := ← name.required Document.text?, value := ← value.required Document.text? }

def json (dimension : AlarmDimension) : Json :=
  .object [("Name", .text dimension.name), ("Value", .text dimension.value)]

end AlarmDimension

namespace AlarmDefinition

def ofDocument? (document : Document) : Option AlarmDefinition := do
  let [alarmName, description, metricName, space, statistic, period, evaluationPeriods, threshold,
      comparison, dimensions, actions, missingData] ← document.fields?
        ["AlarmName", "AlarmDescription", "MetricName", "Namespace", "Statistic", "Period",
          "EvaluationPeriods", "Threshold", "ComparisonOperator", "Dimensions", "AlarmActions",
          "TreatMissingData"] | none
  return {
    alarmName := ← alarmName.required Document.text?
    description := ← description.optionalOr Document.text?
    metricName := ← metricName.required Document.text?
    space := ← space.orElse "AWS/ApplicationELB" Document.text?
    statistic := ← statistic.required Document.text?
    period := ← period.required (Document.natural? 32)
    evaluationPeriods := ← evaluationPeriods.required (Document.natural? 32)
    threshold := ← threshold.required Document.real?
    comparison := ← comparison.required Document.text?
    dimensions := ← dimensions.orElse [] (Document.list? AlarmDimension.ofDocument?)
    actions := ← actions.orElse [] (Document.list? Document.text?)
    missingData := ← missingData.optionalOr Document.text? }

def member (key : String) (value : Option Json) : List (String × Json) :=
  (value.map (key, ·)).toList

def json (alarm : AlarmDefinition) : Json :=
  .object <|
    [("AlarmName", .text alarm.alarmName)]
      ++ member "AlarmDescription" (alarm.description.map .text)
      ++ [("MetricName", .text alarm.metricName),
        ("Namespace", .text alarm.space),
        ("Statistic", .text alarm.statistic),
        ("Period", .integer alarm.period),
        ("EvaluationPeriods", .integer alarm.evaluationPeriods),
        ("Threshold", .number alarm.threshold),
        ("ComparisonOperator", .text alarm.comparison)]
      ++ member "Dimensions"
          (if alarm.dimensions.isEmpty then none
            else some (.list (alarm.dimensions.map AlarmDimension.json)))
      ++ member "AlarmActions"
          (if alarm.actions.isEmpty then none else some (.texts alarm.actions))
      ++ member "TreatMissingData" (alarm.missingData.map .text)

end AlarmDefinition

namespace AlarmSet

def ofDocument? : Document → Option AlarmSet := Document.list? AlarmDefinition.ofDocument?

def json (alarms : AlarmSet) : Json := .list (alarms.map AlarmDefinition.json)

def hash? (alarms : AlarmSet) : Option String :=
  if alarms.isEmpty then none else some (Sha256.text alarms.json.compact.toUTF8.toList)

end AlarmSet

namespace ConfigResource

def ofDocument? (document : Document) : Option ConfigResource := do
  let [space, name, data] ← document.fields? ["namespace", "name", "data"] | none
  return {
    space := ← space.required Document.text?
    name := ← name.required Document.text?
    data := ← data.orElse {} (Document.table? Document.text?) }

def json (resource : ConfigResource) : Json :=
  .object
    [("namespace", .text resource.space), ("name", .text resource.name),
      ("data", .object (resource.data.entries.map fun (key, value) => (key, .text value)))]

end ConfigResource

end IngressControl
