import DelegatedVoting.Gateway.Response
import DelegatedVoting.Proofs.Members
import Mathlib.Data.List.Forall2

/-!
# The documents of results

The documents that tell the results of calls have a member for each field of the result.

* `Document.ShowsTally`, `ShowsProposal`, `ShowsPage`, `ShowsAccepted`, `ShowsPreview`,
  `ShowsEntry`, `ShowsHistory`, `ShowsError`: what documents tell, field by field;
* `Document.showsTally` and its siblings: the documents of results tell the results.
-/

namespace DelegatedVoting.Gateway.Document

open Json

/-- The document tells a result. -/
structure ShowsTally (t : Tally) (d : Json) : Prop where
  proposal_id : d.field? "proposal_id" .text = some (toString t.proposal)
  yes_count : d.field? "yes_count" .word64 = some t.yesCount
  no_count : d.field? "no_count" .word64 = some t.noCount
  abstain_count : d.field? "abstain_count" .word64 = some t.abstainCount
  outcome : d.field? "outcome" .text = some t.outcome.name
  finalized_by : d.field? "finalized_by" .word32 = some t.finalizedBy
  finalized_at : d.field? "finalized_at" .word64 = some t.finalizedAt

theorem showsTally (t : Tally) : ShowsTally t (tally t) where
  proposal_id := field?_ofMembers rfl (Shape.read_text _)
  yes_count := field?_ofMembers rfl (Shape.read_word64 _)
  no_count := field?_ofMembers rfl (Shape.read_word64 _)
  abstain_count := field?_ofMembers rfl (Shape.read_word64 _)
  outcome := field?_ofMembers rfl (Shape.read_text _)
  finalized_by := field?_ofMembers rfl (Shape.read_word32 _)
  finalized_at := field?_ofMembers rfl (Shape.read_word64 _)

/-- The document tells a proposal. It has a result if and only if the proposal has one. -/
structure ShowsProposal (q : Proposal) (d : Json) : Prop where
  id : d.field? "id" .text = some (toString q.id)
  sequence : d.field? "sequence" .word64 = some q.sequence
  proposer_id : d.field? "proposer_id" .word32 = some q.proposer
  statement : d.field? "statement" .text = some q.statement
  status : d.field? "status" .text = some q.status.name
  created_at : d.field? "created_at" .word64 = some q.createdAt
  result : Option.Rel ShowsTally q.result (d.member? "result")

theorem showsProposal (q : Proposal) : ShowsProposal q (proposal q) where
  id := field?_ofMembers rfl (Shape.read_text _)
  sequence := field?_ofMembers rfl (Shape.read_word64 _)
  proposer_id := field?_ofMembers rfl (Shape.read_word32 _)
  statement := field?_ofMembers rfl (Shape.read_text _)
  status := field?_ofMembers rfl (Shape.read_text _)
  created_at := field?_ofMembers rfl (Shape.read_word64 _)
  result := by
    rw [proposal, member?_ofMembers]
    cases q.result with
    | none => exact .none
    | some t => exact .some (showsTally t)

/-- The document tells a page of proposals in their order. It has a cursor if and only if the page
has one. -/
structure ShowsPage (page : Listing.Page Proposal) (d : Json) : Prop where
  proposals : ∃ items, d.member? "proposals" = some (.array items true) ∧
    List.Forall₂ ShowsProposal page.items items
  cursor : Option.Rel (fun cursor v => Shape.text.read v = .ok cursor) page.next
    (d.member? "cursor")

theorem showsPage (page : Listing.Page Proposal) : ShowsPage page (Document.page page) where
  proposals := ⟨page.items.map proposal, member?_ofMembers _ _,
    List.forall₂_map_right_iff.2 (List.forall₂_same.2 fun q _ => showsProposal q)⟩
  cursor := by
    rw [Document.page, member?_ofMembers]
    cases page.next with
    | none => exact .none
    | some cursor => exact .some (Shape.read_text cursor)

/-- The document tells that an action was accepted, whose it is, and under which number. -/
structure ShowsAccepted (p : ProposalId) (v : ParticipantId) (seq : UInt64) (d : Json) : Prop where
  proposal_id : d.field? "proposal_id" .text = some (toString p)
  voter_id : d.field? "voter_id" .word32 = some v
  seq : d.field? "seq" .word64 = some seq

theorem showsAccepted (p : ProposalId) (a : Ballot.Action) :
    ShowsAccepted p a.voter a.seq (accepted p a) where
  proposal_id := field?_ofMembers rfl (Shape.read_text _)
  voter_id := field?_ofMembers rfl (Shape.read_word32 _)
  seq := field?_ofMembers rfl (Shape.read_word64 _)

/-- The document tells how a vote stands. -/
structure ShowsPreview (p : Preview) (d : Json) : Prop where
  proposal_id : d.field? "proposal_id" .text = some (toString p.proposal)
  status : d.field? "status" .text = some p.status.name
  yes : d.field? "yes" .word64 = some p.counts.yes
  no : d.field? "no" .word64 = some p.counts.no
  abstain : d.field? "abstain" .word64 = some p.counts.abstain
  outcome : d.field? "outcome" .text = some p.outcome.name

theorem showsPreview (p : Preview) : ShowsPreview p (preview p) where
  proposal_id := field?_ofMembers rfl (Shape.read_text _)
  status := field?_ofMembers rfl (Shape.read_text _)
  yes := field?_ofMembers rfl (Shape.read_word64 _)
  no := field?_ofMembers rfl (Shape.read_word64 _)
  abstain := field?_ofMembers rfl (Shape.read_word64 _)
  outcome := field?_ofMembers rfl (Shape.read_text _)

/-- The document tells an action: a vote and what was voted, or a delegation and to whom. -/
def ShowsAction (a : Ballot.Action) (d : Json) : Prop :=
  match a with
  | .vote _ isYes _ =>
    d.field? "kind" .text = some "vote" ∧ d.field? "is_yes" .flag = some isYes ∧
      d.member? "delegate_id" = none
  | .delegation _ delegate _ =>
    d.field? "kind" .text = some "delegation" ∧ d.field? "delegate_id" .word32 = some delegate ∧
      d.member? "is_yes" = none

/-- The document tells an entry of a history. -/
structure ShowsEntry (r : Ballot.Record) (d : Json) : Prop where
  seq : d.field? "seq" .word64 = some r.action.seq
  action : ShowsAction r.action d
  recorded_at : d.field? "recorded_at" .word64 = some r.recordedAt

theorem showsEntry (r : Ballot.Record) : ShowsEntry r (entry r) := by
  obtain ⟨action, recordedAt⟩ := r
  cases action with
  | vote v isYes seq =>
    exact {
      seq := field?_ofMembers rfl (Shape.read_word64 _)
      action := ⟨field?_ofMembers rfl (Shape.read_text _), field?_ofMembers rfl (Shape.read_flag _),
        member?_ofMembers _ _⟩
      recorded_at := field?_ofMembers rfl (Shape.read_word64 _) }
  | delegation v delegate seq =>
    exact {
      seq := field?_ofMembers rfl (Shape.read_word64 _)
      action := ⟨field?_ofMembers rfl (Shape.read_text _),
        field?_ofMembers rfl (Shape.read_word32 _), member?_ofMembers _ _⟩
      recorded_at := field?_ofMembers rfl (Shape.read_word64 _) }

/-- The document tells a history, its entries in their order. -/
structure ShowsHistory (p : ProposalId) (v : ParticipantId) (records : List Ballot.Record)
    (d : Json) : Prop where
  proposal_id : d.field? "proposal_id" .text = some (toString p)
  voter_id : d.field? "voter_id" .word32 = some v
  history : ∃ entries, d.member? "history" = some (.array entries true) ∧
    List.Forall₂ ShowsEntry records entries

theorem showsHistory (p : ProposalId) (v : ParticipantId) (records : List Ballot.Record) :
    ShowsHistory p v records (history p v records) where
  proposal_id := field?_ofMembers rfl (Shape.read_text _)
  voter_id := field?_ofMembers rfl (Shape.read_word32 _)
  history := ⟨records.map entry, member?_ofMembers _ _,
    List.forall₂_map_right_iff.2 (List.forall₂_same.2 fun r _ => showsEntry r)⟩

/-- The document tells the kind of an error, and its report. -/
structure ShowsError (kind message : String) (d : Json) : Prop where
  error : d.field? "error" .text = some kind
  message : d.field? "message" .text = some message

theorem showsError (x : Rejection) : ShowsError x.kind x.message (rejection x) where
  error := field?_ofMembers rfl (Shape.read_text _)
  message := field?_ofMembers rfl (Shape.read_text _)

end DelegatedVoting.Gateway.Document
