import DelegatedVoting.Metrics
import DelegatedVoting.Text.Shortest

/-!
# The exposition of metrics

The text that shows metrics to a collector: for each family of samples a line that explains it, a
line that tells its type, and a line for each sample. Families stand in the order of their names;
a family of labelled counts that has no sample is left out.

* `Sample`, `Family`: lines and what they are about;
* `Metrics.families`: the families of the metrics of a node;
* `Metrics.exposition`: the lines of the text.
-/

namespace DelegatedVoting

namespace Exposition

/-- A value with labels. -/
structure Sample where
  /-- What stands between the name of the family and the labels. -/
  ending : String := ""
  labels : List (String × String) := []
  value : Float

/-- The types of families. -/
inductive Kind
  | counter
  | gauge
  | histogram
  deriving DecidableEq, Repr

/-- The written form of a type. -/
def Kind.text : Kind → String
  | .counter => "counter"
  | .gauge => "gauge"
  | .histogram => "histogram"

/-- Samples of one name. -/
structure Family where
  name : String
  explanation : String
  kind : Kind
  samples : List Sample

/-- A character of the value of a label. -/
def escape (c : Char) : List Char :=
  match c with
  | '\\' => ['\\', '\\']
  | '\n' => ['\\', 'n']
  | '"' => ['\\', '"']
  | c => [c]

/-- A label and its value. -/
def writeLabel (label : String × String) : String :=
  label.1 ++ "=\"" ++ String.ofList (label.2.toList.flatMap escape) ++ "\""

/-- The labels of a sample. -/
def writeLabels (labels : List (String × String)) : String :=
  if labels.isEmpty then "" else "\x7b" ++ ",".intercalate (labels.map writeLabel) ++ "\x7d"

/-- The line of a sample of the family with the given name. -/
def Sample.line (name : String) (s : Sample) : String :=
  name ++ s.ending ++ writeLabels s.labels ++ " " ++ Text.Shortest.write s.value

/-- The lines of a family. -/
def Family.lines (f : Family) : List String :=
  if f.samples.isEmpty then []
  else
    ("# HELP " ++ f.name ++ " " ++ f.explanation) ::
      ("# TYPE " ++ f.name ++ " " ++ f.kind.text) :: f.samples.map (Sample.line f.name)

/-- A single count. -/
def count (n : UInt64) : List Sample := [{ value := n.toFloat }]

/-- A sample for each label. -/
def labelled (label : String) (c : LabelledCount) : List Sample :=
  c.toList.map fun e => { labels := [(label, e.1)], value := e.2.toFloat }

/-- A sample for each bound and for all values, their sum and their number. -/
def histogram (h : Histogram) : List Sample :=
  let bucket (bound : String) (n : UInt64) : Sample :=
    { ending := "_bucket", labels := [("le", bound)], value := n.toFloat }
  h.cumulated.map (fun b => bucket (Text.Shortest.write b.1) b.2) ++
    [bucket "+Inf" h.count, { ending := "_sum", value := h.sum },
      { ending := "_count", value := h.count.toFloat }]

end Exposition

namespace Metrics

open Exposition

/-- The families of the metrics of a node, in the order of their names. -/
def families (m : Metrics) : List Family :=
  [⟨"liquid_delegations_total", "Total delegations recorded", .counter, count m.delegations⟩,
   ⟨"liquid_finalize_duration_ms", "Finalize latency in milliseconds", .histogram,
     histogram m.durations⟩,
   ⟨"liquid_open_proposals", "Proposals still accepting ballots", .gauge,
     [{ value := m.openProposals.toFloat }]⟩,
   ⟨"liquid_proposals_created_total", "Total proposals created", .counter, count m.created⟩,
   ⟨"liquid_proposals_finalized_total", "Total proposals finalized, by outcome", .counter,
     labelled "outcome" m.finalized⟩,
   ⟨"liquid_requests_rejected_total", "Total rejected requests, by error kind", .counter,
     labelled "kind" m.rejected⟩,
   ⟨"liquid_votes_total", "Total direct votes recorded", .counter, count m.votes⟩]

/-- The lines of the text that shows the metrics. -/
def exposition (m : Metrics) : List String := m.families.flatMap Family.lines

end Metrics

end DelegatedVoting
