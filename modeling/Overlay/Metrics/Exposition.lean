import Overlay.Metrics.Registry
import Overlay.Number.Shortest
import Overlay.Text.Split

/-!
# The text of the metrics

Each family of samples is written as a line of help, a line with its type and one line for each
sample. Families are in the order of their names and samples in the order of their label values; a
family without samples is left out.
-/

namespace Overlay.Metrics

/-- Escapes a label value: the backslash, the quote and the line feed. -/
def escapeLabel (s : String) : String :=
  String.ofList <| s.toList.flatMap fun c =>
    if c = '\\' then ['\\', '\\']
    else if c = '"' then ['\\', '"']
    else if c = '\n' then ['\\', 'n']
    else [c]

/-- The labels of a sample, in braces. -/
def labelText (names values : List String) : String :=
  let pairs := List.zipWith (fun name value => name ++ "=\"" ++ escapeLabel value ++ "\"") names values
  "\x7b" ++ Text.join "," pairs ++ "\x7d"

/-- The line of one sample. -/
def sampleLine (name : String) (names values : List String) (number : String) : String :=
  name ++ labelText names values ++ " " ++ number

/-- The lines of a family, if it has samples. -/
def familyLines (name help type : String) (samples : List String) : List String :=
  if samples = [] then []
  else ["# HELP " ++ name ++ " " ++ help, "# TYPE " ++ name ++ " " ++ type] ++ samples

/-- The lines of a family of counters. -/
def counterLines (name help : String) (names : List String) (c : Counter) : List String :=
  familyLines name help "counter" <|
    c.entries.map fun e => sampleLine name names e.1 (toString e.2)

/-- The sample lines of one histogram. -/
def histogramLines (name : String) (names values : List String) (h : Histogram) : List String :=
  let bucket (bound : String) (n : Nat) :=
    sampleLine (name ++ "_bucket") (names ++ ["le"]) (values ++ [bound]) (toString n)
  List.zipWith (fun bound n => bucket (Number.text bound) n) Histogram.bounds h.cumulative
    ++ [bucket "+Inf" h.count,
      sampleLine (name ++ "_sum") names values (Number.text h.sum),
      sampleLine (name ++ "_count") names values (toString h.count)]

/-- What the names of all families begin with. -/
def family (rest : String) : String := "midonet_kube_" ++ rest

/-- The name of the family of durations. -/
def durationsName : String := family "reconciliation_duration_seconds"

/-- All lines of the metrics. -/
def lines (m : Metrics) : List String :=
  counterLines (family "backend_requests_total")
      "Total number of MidoNet API requests by method, resource and status"
      ["method", "resource", "status"] m.requests
    ++ counterLines (family "backend_resources_deleted_total")
      "Total number of MidoNet objects deleted by resource" ["resource"] m.deletions
    ++ familyLines durationsName "Duration of reconciliations in seconds by kind" "histogram"
      (m.durations.entries.flatMap fun e => histogramLines durationsName ["kind"] e.1 e.2)
    ++ counterLines (family "reconciliations_total")
      "Total number of reconciliations by kind and status" ["kind", "status"] m.reconciliations
    ++ counterLines (family "requeues_total")
      "Total number of re-deliveries by kind and reason" ["kind", "reason"] m.requeues

/-- The text of the metrics. -/
def text (m : Metrics) : String := String.join (m.lines.map (· ++ "\n"))

end Overlay.Metrics
