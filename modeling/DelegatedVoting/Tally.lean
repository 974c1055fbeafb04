import DelegatedVoting.Resolution

/-!
# Tallies

* `Counts`: how many participants end up with each vote, with `Counts.ofResolution`;
* `Outcome`: a proposal passes if more participants end up with a yes than with a no;
* `Tally`: the counts and the outcome that a finalized proposal keeps.
-/

namespace DelegatedVoting

/-- How many participants end up with each vote. -/
structure Counts where
  yes : UInt64
  no : UInt64
  abstain : UInt64
  deriving DecidableEq, Repr

namespace Counts

/-- The counts of a resolution. -/
def ofResolution (r : Resolution) : Counts :=
  let number (vote : Vote) : UInt64 := UInt64.ofNat (r.values.countP (· = vote))
  ⟨number .yes, number .no, number .abstain⟩

/-- The number of all the votes. -/
def total (c : Counts) : UInt64 := c.yes + c.no + c.abstain

end Counts

/-- What becomes of a proposal. -/
inductive Outcome
  | passed
  | rejected
  deriving DecidableEq, Repr

namespace Outcome

/-- A proposal passes if it has more yes votes than no votes. -/
def ofCounts (yes no : UInt64) : Outcome := if no < yes then .passed else .rejected

/-- The name of an outcome. -/
def name : Outcome → String
  | .passed => "passed"
  | .rejected => "rejected"

end Outcome

/-- The outcome of counts. -/
def Counts.outcome (c : Counts) : Outcome := .ofCounts c.yes c.no

/-- The frozen result of a finalized proposal. -/
structure Tally where
  proposal : ProposalId
  yesCount : UInt64
  noCount : UInt64
  abstainCount : UInt64
  outcome : Outcome
  finalizedBy : ParticipantId
  finalizedAt : Timestamp
  deriving DecidableEq

/-- The counts of a tally. -/
def Tally.counts (t : Tally) : Counts := ⟨t.yesCount, t.noCount, t.abstainCount⟩

/-- The tally of counts. -/
def Tally.ofCounts (proposal : ProposalId) (c : Counts) (finalizedBy : ParticipantId)
    (finalizedAt : Timestamp) : Tally :=
  ⟨proposal, c.yes, c.no, c.abstain, c.outcome, finalizedBy, finalizedAt⟩

end DelegatedVoting
