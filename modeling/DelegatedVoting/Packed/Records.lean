import DelegatedVoting.Packed.Format
import DelegatedVoting.Proposal

/-!
# Packed records

The packed forms of the records that a store keeps, and of the values that they are made of.
The fields of a record follow each other in the order of its declaration.
-/

namespace DelegatedVoting.Packed.Format

/-- A name: its bytes after their number. -/
def proposalId : Format ProposalId where
  write p := block.write p.bytes
  read bytes := do
    let (body, rest) ← block.read bytes
    if h : body.length = 16 then pure (⟨body, h⟩, rest)
    else throw (.nameLength body.length)

def participantId : Format ParticipantId := word32

def timestamp : Format Timestamp := word64

def outcome : Format Outcome := oneOf [.passed, .rejected]

def status : Format Status := oneOf [.open, .finalized]

def vote : Format Vote := oneOf [.yes, .no, .abstain]

def finalizePolicy : Format FinalizePolicy := oneOf [.anyone, .proposerOnly]

def rules : Format Rules :=
  (pair finalizePolicy word64).along (fun v => ⟨v.1, v.2⟩)
    (fun r => (r.finalizePolicy, r.maxStatementLength))

def counts : Format Counts :=
  (pair word64 (pair word64 word64)).along (fun v => ⟨v.1, v.2.1, v.2.2⟩)
    (fun c => (c.yes, c.no, c.abstain))

def preview : Format Preview :=
  (pair proposalId (pair counts (pair outcome status))).along
    (fun v => ⟨v.1, v.2.1, v.2.2.1, v.2.2.2⟩)
    (fun p => (p.proposal, p.counts, p.outcome, p.status))

def tally : Format Tally :=
  (pair proposalId (pair counts (pair outcome (pair participantId timestamp)))).along
    (fun v => ⟨v.1, v.2.1.yes, v.2.1.no, v.2.1.abstain, v.2.2.1, v.2.2.2.1, v.2.2.2.2⟩)
    (fun t => (t.proposal, t.counts, t.outcome, t.finalizedBy, t.finalizedAt))

def proposal : Format Proposal :=
  (pair proposalId (pair word64 (pair participantId (pair text (pair status
    (pair timestamp (optional tally))))))).along
    (fun v => ⟨v.1, v.2.1, v.2.2.1, v.2.2.2.1, v.2.2.2.2.1, v.2.2.2.2.2.1, v.2.2.2.2.2.2⟩)
    (fun p => (p.id, p.sequence, p.proposer, p.statement, p.status, p.createdAt, p.result))

/-- A direct vote comes before a delegation. -/
def action : Format Ballot.Action :=
  (either (pair participantId (pair flag word64))
    (pair participantId (pair participantId word64))).along
    (fun
      | .inl v => .vote v.1 v.2.1 v.2.2
      | .inr v => .delegation v.1 v.2.1 v.2.2)
    (fun
      | .vote voter isYes seq => .inl (voter, isYes, seq)
      | .delegation voter delegate seq => .inr (voter, delegate, seq))

def ballotRecord : Format Ballot.Record :=
  (pair action timestamp).along (fun v => ⟨v.1, v.2⟩) (fun r => (r.action, r.recordedAt))

end DelegatedVoting.Packed.Format
