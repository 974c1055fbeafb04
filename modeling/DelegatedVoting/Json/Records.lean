import DelegatedVoting.Json.Shape
import DelegatedVoting.Proposal

/-!
# Records as JSON

The shapes of the records that the library shows, and of the values that they are made of.
-/

namespace DelegatedVoting.Json.Shape

def proposalId : Shape ProposalId := textual toString ProposalId.read?

def participantId : Shape ParticipantId := word32

def timestamp : Shape Timestamp := word64

def outcome : Shape Outcome := names [("Passed", .passed), ("Rejected", .rejected)]

def status : Shape Status := names [("Open", .open), ("Finalized", .finalized)]

def vote : Shape Vote := names [("yes", .yes), ("no", .no), ("abstain", .abstain)]

def finalizePolicy : Shape FinalizePolicy :=
  names [("anyone", .anyone), ("proposer_only", .proposerOnly)]

/-- Rules may leave out what stays at its default. -/
def rules : Shape Rules :=
  (record [
    { keys := ["finalize_policy"], Value := FinalizePolicy, shape := finalizePolicy,
      absent := some ({} : Rules).finalizePolicy, omitted := some ({} : Rules).finalizePolicy },
    { keys := ["max_statement_len"], Value := UInt64, shape := word64,
      absent := some ({} : Rules).maxStatementLength,
      omitted := some ({} : Rules).maxStatementLength }]).along
    (fun v => ⟨v.1, v.2.1⟩) (fun r => (r.finalizePolicy, r.maxStatementLength, ()))

def counts : Shape Counts :=
  (record [.required "yes" word64, .required "no" word64, .required "abstain" word64]).along
    (fun v => ⟨v.1, v.2.1, v.2.2.1⟩) (fun c => (c.yes, c.no, c.abstain, ()))

def preview : Shape Preview :=
  (record [.required "proposal_id" proposalId, .required "counts" counts,
    .required "outcome" outcome, .required "status" status]).along
    (fun v => ⟨v.1, v.2.1, v.2.2.1, v.2.2.2.1⟩)
    (fun p => (p.proposal, p.counts, p.outcome, p.status, ()))

def tally : Shape Tally :=
  (record [.required "proposal_id" proposalId, .required "yes_count" word64,
    .required "no_count" word64, .required "abstain_count" word64, .required "outcome" outcome,
    .required "finalized_by" participantId, .required "finalized_at" timestamp]).along
    (fun v => ⟨v.1, v.2.1, v.2.2.1, v.2.2.2.1, v.2.2.2.2.1, v.2.2.2.2.2.1, v.2.2.2.2.2.2.1⟩)
    (fun t => (t.proposal, t.yesCount, t.noCount, t.abstainCount, t.outcome, t.finalizedBy,
      t.finalizedAt, ()))

/-- An object may leave out the result of a proposal that has none. -/
def proposal : Shape Proposal :=
  (record [.required "id" proposalId, .required "sequence" word64,
    .required "proposer_id" participantId, .required "statement" text, .required "status" status,
    .required "created_at" timestamp,
    { keys := ["result"], Value := Option Tally, shape := nullable tally,
      absent := some none }]).along
    (fun v => ⟨v.1, v.2.1, v.2.2.1, v.2.2.2.1, v.2.2.2.2.1, v.2.2.2.2.2.1, v.2.2.2.2.2.2.1⟩)
    (fun p => (p.id, p.sequence, p.proposer, p.statement, p.status, p.createdAt, p.result, ()))

def action : Shape Ballot.Action :=
  (either
    "DirectVote" (record [.required "voter_id" participantId, .required "is_yes" flag,
      .required "seq" word64])
    "Delegation" (record [.required "voter_id" participantId,
      .required "delegate_id" participantId, .required "seq" word64])).along
    (fun
      | .inl v => .vote v.1 v.2.1 v.2.2.1
      | .inr v => .delegation v.1 v.2.1 v.2.2.1)
    (fun
      | .vote voter isYes seq => .inl (voter, isYes, seq, ())
      | .delegation voter delegate seq => .inr (voter, delegate, seq, ()))

def ballotRecord : Shape Ballot.Record :=
  (record [.required "action" action, .required "recorded_at" timestamp]).along
    (fun v => ⟨v.1, v.2.1⟩) (fun r => (r.action, r.recordedAt, ()))

end DelegatedVoting.Json.Shape
