import IngressControl.Decimal.Shortest
import IngressControl.Table
/-!
Metrics: counters, gauges and a summary of durations, and the text in which they are exposed.

A metric shows once it has a value. Announced metrics also show what they are about.
-/

namespace IngressControl

structure DurationSummary where
  count : Nat := 0
  sum : Binary64 := .zero false
  deriving DecidableEq, Repr

abbrev Counts := Table (List String) Nat

structure Metrics where
  announced : Bool := false
  changes : Counts := {}
  problems : Counts := {}
  passes : Counts := {}
  refreshes : Counts := {}
  failedPasses : Option Nat := none
  certificates : Option Nat := none
  durations : Option DurationSummary := none

namespace Counts

def increment (counts : Counts) (labels : List String) : Counts :=
  counts.insert labels ((counts.get? labels).getD 0 + 1)

/-- Lets a count show from zero on, and keeps it if it is there. -/
def reveal (counts : Counts) (labels : List String) : Counts :=
  counts.insert labels ((counts.get? labels).getD 0)

def revealAll (counts : Counts) (labels : List (List String)) : Counts := labels.foldl reveal counts

end Counts

namespace Metrics

def recordChange (metrics : Metrics) (resource operation : String) : Metrics :=
  { metrics with changes := metrics.changes.increment [resource, operation] }

def recordProblem (metrics : Metrics) (kind : String) : Metrics :=
  { metrics with problems := metrics.problems.increment [kind] }

def recordPass (metrics : Metrics) (seconds : Binary64) (problems : Nat) : Metrics :=
  let known := metrics.durations.getD {}
  let outcome := if problems = 0 then "success" else "problems"
  { metrics with
    durations := some ⟨known.count + 1, known.sum.plus seconds⟩
    passes := metrics.passes.increment [outcome] }

def recordFault (metrics : Metrics) : Metrics :=
  { metrics with passes := metrics.passes.increment ["fault"] }

def setFailedPasses (metrics : Metrics) (count : Nat) : Metrics :=
  { metrics with failedPasses := some count }

def setCertificates (metrics : Metrics) (count : Nat) : Metrics :=
  { metrics with certificates := some count }

def recordRefresh (metrics : Metrics) (succeeded : Bool) : Metrics :=
  let outcome := if succeeded then "success" else "error"
  { metrics with refreshes := metrics.refreshes.increment [outcome] }

/-- Announces all metrics. Outcomes show from zero on, and gauges start at zero again. -/
def announce (metrics : Metrics) : Metrics :=
  { metrics with
    announced := true
    passes := metrics.passes.revealAll [["success"], ["problems"], ["fault"]]
    refreshes := metrics.refreshes.revealAll [["success"], ["error"]]
    failedPasses := some 0
    certificates := some 0 }

/-- A label's value inside quotes. A backslash that already escapes a backslash or a quote stays
as it is; `pending` says that one has been read and not yet written. -/
def escapedFrom (pending : Bool) : List Char → List Char
  | [] => if pending then ['\\', '\\'] else []
  | char :: chars =>
      match char with
      | '\n' => '\\' :: 'n' :: escapedFrom pending chars
      | '"' => '\\' :: '"' :: escapedFrom false chars
      | '\\' =>
          if pending then '\\' :: '\\' :: escapedFrom false chars else escapedFrom true chars
      | char => (if pending then ['\\', '\\'] else []) ++ char :: escapedFrom false chars

def escaped (value : String) : String := String.ofList (escapedFrom false value.toList)

def labelText (names values : List String) : String :=
  let labels := (names.zip values).map fun (name, value) => name ++ "=\"" ++ escaped value ++ "\""
  "\x7b" ++ String.intercalate "," labels ++ "\x7d"

def family (metrics : Metrics) (name type about : String) (values : List String) : List String :=
  if values.isEmpty then []
  else
    (if metrics.announced then ["# HELP " ++ name ++ " " ++ about] else [])
      ++ ("# TYPE " ++ name ++ " " ++ type) :: values

def counter (metrics : Metrics) (name about : String) (labels : List String) (counts : Counts) :
    List String :=
  metrics.family name "counter" about <| counts.entries.map fun (values, count) =>
    name ++ labelText labels values ++ " " ++ toString count

def gauge (metrics : Metrics) (name about : String) (value : Option Nat) : List String :=
  metrics.family name "gauge" about <| value.toList.map fun value =>
    name ++ " " ++ (Binary64.ofNat value).plainText

def summary (metrics : Metrics) (name about : String) (value : Option DurationSummary) :
    List String :=
  metrics.family name "summary" about <| value.toList.flatMap fun value =>
    [name ++ "_sum " ++ value.sum.plainText, name ++ "_count " ++ toString value.count]

def lines (metrics : Metrics) : List String :=
  metrics.counter "albkeeper_changes_total"
      "Changes applied to stacks, endpoint statuses and targets" ["resource", "operation"]
      metrics.changes
    ++ metrics.counter "albkeeper_pass_problems_total"
        "Problems collected during reconciliation passes, by error kind" ["kind"] metrics.problems
    ++ metrics.summary "albkeeper_pass_duration_seconds" "Duration of one reconciliation pass"
        metrics.durations
    ++ metrics.counter "albkeeper_passes_total" "Reconciliation passes by outcome" ["outcome"]
        metrics.passes
    ++ metrics.gauge "albkeeper_consecutive_failed_passes"
        "Passes in a row that reported at least one problem" metrics.failedPasses
    ++ metrics.gauge "albkeeper_certificates_cached"
        "Certificates in the current certificate snapshot" metrics.certificates
    ++ metrics.counter "albkeeper_certificate_refresh_total"
        "Certificate store refreshes by outcome" ["outcome"] metrics.refreshes

end Metrics

end IngressControl
