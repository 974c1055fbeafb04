import DelegatedVoting.Tally

/-!
# Proposals and the rules of a vote

* `Proposal`: a statement that participants vote on, open until it is finalized;
* `Proposal.IsConsistent`: status and result agree;
* `Preview`: the counts of a proposal at this moment;
* `Rules`: who may finalize, and how long a statement may be.
-/

namespace DelegatedVoting

/-- Whether ballots are accepted. -/
inductive Status
  | open
  | finalized
  deriving DecidableEq, Repr

/-- The name of a status. -/
def Status.name : Status → String
  | .open => "open"
  | .finalized => "finalized"

/-- A statement that participants vote on. -/
structure Proposal where
  id : ProposalId
  /-- The place in the order of creation. -/
  sequence : UInt64
  proposer : ParticipantId
  statement : String
  status : Status
  createdAt : Timestamp
  result : Option Tally
  deriving DecidableEq

namespace Proposal

/-- Whether ballots are accepted. -/
def IsOpen (p : Proposal) : Prop := p.status = .open

instance (p : Proposal) : Decidable p.IsOpen := inferInstanceAs (Decidable (_ = _))

/-- An open proposal has no result; a finalized one has a result that names it. -/
def IsConsistent (p : Proposal) : Prop :=
  match p.status, p.result with
  | .open, none => True
  | .finalized, some t => t.proposal = p.id
  | _, _ => False

instance (p : Proposal) : Decidable p.IsConsistent := by
  unfold IsConsistent; split <;> infer_instance

/-- The proposal with its result. -/
def finalize (p : Proposal) (t : Tally) : Proposal :=
  { p with status := .finalized, result := some t }

end Proposal

/-- The counts of a proposal at this moment. -/
structure Preview where
  proposal : ProposalId
  counts : Counts
  outcome : Outcome
  status : Status
  deriving DecidableEq

/-- Who may finalize a proposal. -/
inductive FinalizePolicy
  | anyone
  | proposerOnly
  deriving DecidableEq, Repr

/-- The name of a policy. -/
def FinalizePolicy.name : FinalizePolicy → String
  | .anyone => "anyone"
  | .proposerOnly => "proposer_only"

/-- The rules of a vote. -/
structure Rules where
  finalizePolicy : FinalizePolicy := .anyone
  /-- The largest number of bytes of a statement. -/
  maxStatementLength : UInt64 := 4096
  deriving DecidableEq, Repr

end DelegatedVoting
