import DelegatedVoting.Ballot
import DelegatedVoting.Tally
import Std.Data.ExtTreeMap

/-!
# Metrics

What a node counts while it answers requests.

* `Event`: what can be counted;
* `Histogram`, `Histogram.observe`: how many measured values lie below each of some bounds;
* `Metrics`, `Metrics.record`: the counts, and what an event does to them.
-/

namespace DelegatedVoting

/-- A length of time in microseconds. -/
abbrev Microseconds := Nat

/-- What a node can count. -/
inductive Event
  | created
  | voted
  | delegated
  | finalized (outcome : Outcome) (duration : Microseconds)
  /-- A request was answered with an error of the given kind. -/
  | rejected (kind : String)
  /-- The number of open proposals is known. -/
  | opened (count : UInt64)
  deriving DecidableEq, Repr

/-- The event of an accepted ballot. -/
def Event.ofAction : Ballot.Action → Event
  | .vote .. => .voted
  | .delegation .. => .delegated

/-- Counts under labels. A label that has never been counted is not there. -/
abbrev LabelledCount := Std.ExtTreeMap String UInt64

/-- Count one more under a label. -/
def LabelledCount.increment (label : String) (c : LabelledCount) : LabelledCount :=
  c.insert label (c.getD label 0 + 1)

/-! ### Histograms -/

/-- How often measured values were at most a bound and above the bound before. -/
structure Histogram where
  /-- The bounds in ascending order with the number of values of each. -/
  buckets : List (Float × UInt64)
  /-- The number of all values, with those above the last bound. -/
  count : UInt64
  sum : Float

namespace Histogram

/-- Bounds that start with `first` and grow by `factor`. -/
def bounds (first factor : Float) : (count : Nat) → List Float
  | 0 => []
  | count + 1 => first :: bounds (first * factor) factor count

/-- No value has been measured. -/
def empty (bounds : List Float) : Histogram := ⟨bounds.map fun b => (b, 0), 0, 0⟩

/-- Count a value at the first bound that it does not exceed. -/
def place (x : Float) : List (Float × UInt64) → List (Float × UInt64)
  | [] => []
  | (bound, n) :: rest =>
    if x ≤ bound then (bound, n + 1) :: rest else (bound, n) :: place x rest

/-- A value has been measured. -/
def observe (x : Float) (h : Histogram) : Histogram := ⟨place x h.buckets, h.count + 1, h.sum + x⟩

/-- The numbers of values up to each bound, where `below` values have been counted already. -/
def cumulateFrom (below : UInt64) : List (Float × UInt64) → List (Float × UInt64)
  | [] => []
  | (bound, n) :: rest => (bound, below + n) :: cumulateFrom (below + n) rest

/-- For each bound the number of values that do not exceed it. -/
def cumulated (h : Histogram) : List (Float × UInt64) := cumulateFrom 0 h.buckets

end Histogram

/-! ### The counts of a node -/

/-- What a node has counted. -/
structure Metrics where
  created : UInt64
  votes : UInt64
  delegations : UInt64
  /-- The finalized proposals by their outcomes. -/
  finalized : LabelledCount
  /-- The rejected requests by the kinds of their errors. -/
  rejected : LabelledCount
  /-- The proposals that accept ballots. -/
  openProposals : Int64
  /-- How long it took to finalize a proposal, in milliseconds. -/
  durations : Histogram

namespace Metrics

/-- The bounds of the durations: fifteen bounds, each of them twice the bound before. -/
def durationBounds : List Float := Histogram.bounds 0.1 2 15

/-- Nothing has been counted. -/
def empty : Metrics := ⟨0, 0, 0, ∅, ∅, 0, .empty durationBounds⟩

instance : Inhabited Metrics := ⟨empty⟩

/-- A length of time in milliseconds. Whole seconds and the rest are converted on their own. -/
def milliseconds (d : Microseconds) : Float :=
  let seconds := d / 1000000
  let nanoseconds := d % 1000000 * 1000
  (Float.ofNat seconds + Float.ofNat nanoseconds / 1000000000) * 1000

/-- Count an event. -/
def record (e : Event) (m : Metrics) : Metrics :=
  match e with
  | .created => { m with created := m.created + 1, openProposals := m.openProposals + 1 }
  | .voted => { m with votes := m.votes + 1 }
  | .delegated => { m with delegations := m.delegations + 1 }
  | .finalized outcome duration =>
    { m with
      finalized := LabelledCount.increment outcome.name m.finalized
      openProposals := m.openProposals - 1
      durations := m.durations.observe (milliseconds duration) }
  | .rejected kind => { m with rejected := LabelledCount.increment kind m.rejected }
  | .opened count => { m with openProposals := count.toInt64 }

end Metrics

end DelegatedVoting
