import DelegatedVoting.Engine
import DelegatedVoting.Executor
import DelegatedVoting.Gateway.Call

/-!
# Responses

What a client is told: a status, and a document or lines of text.

* `Rejection`: why a request is rejected, with its kind, its status and its report;
* `Response`, `Response.ofRejection`;
* `Document`: the documents that tell the results of calls.
-/

namespace DelegatedVoting.Gateway

/-- Why a request is rejected. -/
inductive Rejection
  | refused (r : Refusal)
  | invalid (r : BadRequest)
  | metricsDisabled
  | executor (f : Executor.Failure)
  deriving DecidableEq

namespace Rejection

/-- The kind of a rejection. -/
def kind : Rejection → String
  | .refused r => r.kind
  | .invalid _ => "invalid_request"
  | .metricsDisabled => "metrics_disabled"
  | .executor _ => "server"

/-- The status that tells the kind of a rejection. -/
def status : Rejection → Nat
  | .refused (.notFound _) => 404
  | .refused (.ballotsClosed _) | .refused (.alreadyFinalized _) => 409
  | .refused (.selfDelegation _) | .refused (.notProposer _) | .refused (.statement _) => 400
  | .refused (.store _) => 500
  | .invalid _ => 400
  | .metricsDisabled => 404
  | .executor _ => 500

/-- The report of a rejection. -/
def message : Rejection → String
  | .refused r => r.message
  | .invalid r => "invalid request: " ++ r.message
  | .metricsDisabled => "metrics are disabled on this node"
  | .executor .closed => "server error: " ++ Executor.closedMessage
  | .executor .brokenOff => "server error: engine task failed"

end Rejection

/-- The content of a response. -/
inductive Body
  | empty
  | json (document : Json)
  | text (lines : List String)

/-- What a client is told. -/
structure Response where
  status : Nat
  body : Body

/-! ### Documents -/

namespace Document

open Json

def word32 (n : UInt32) : Json := ofNat n.toNat

def word64 (n : UInt64) : Json := ofNat n.toNat

def name (p : ProposalId) : Json := ofString (toString p)

def tally (t : Tally) : Json :=
  ofMembers [("proposal_id", name t.proposal), ("yes_count", word64 t.yesCount),
    ("no_count", word64 t.noCount), ("abstain_count", word64 t.abstainCount),
    ("outcome", ofString t.outcome.name), ("finalized_by", word32 t.finalizedBy),
    ("finalized_at", word64 t.finalizedAt)]

/-- A proposal, and its result if it has one. -/
def proposal (p : Proposal) : Json :=
  ofMembers ([("id", name p.id), ("sequence", word64 p.sequence),
    ("proposer_id", word32 p.proposer), ("statement", ofString p.statement),
    ("status", ofString p.status.name), ("created_at", word64 p.createdAt)] ++
    (p.result.map fun t => ("result", tally t)).toList)

/-- A page of proposals, and the cursor of the next page if there is one. -/
def page (page : Listing.Page Proposal) : Json :=
  ofMembers (("proposals", .array (page.items.map proposal) true) ::
    (page.next.map fun c => ("cursor", ofString c)).toList)

/-- The news that an action was accepted. -/
def accepted (p : ProposalId) (a : Ballot.Action) : Json :=
  ofMembers [("proposal_id", name p), ("voter_id", word32 a.voter), ("seq", word64 a.seq)]

def preview (p : Preview) : Json :=
  ofMembers [("proposal_id", name p.proposal), ("status", ofString p.status.name),
    ("yes", word64 p.counts.yes), ("no", word64 p.counts.no),
    ("abstain", word64 p.counts.abstain), ("outcome", ofString p.outcome.name)]

/-- An entry of a history. -/
def entry (r : Ballot.Record) : Json :=
  ofMembers (("seq", word64 r.action.seq) ::
    (match r.action with
      | .vote _ isYes _ => [("kind", ofString "vote"), ("is_yes", .flag isYes)]
      | .delegation _ delegate _ =>
        [("kind", ofString "delegation"), ("delegate_id", word32 delegate)]) ++
    [("recorded_at", word64 r.recordedAt)])

def history (p : ProposalId) (v : ParticipantId) (records : List Ballot.Record) : Json :=
  ofMembers [("proposal_id", name p), ("voter_id", word32 v),
    ("history", .array (records.map entry) true)]

/-- The version of the node. -/
def version : String := "0.1.0"

def health (proposals : Nat) (uptime : Nat) : Json :=
  ofMembers [("status", ofString "ok"), ("version", ofString version),
    ("proposals", ofNat proposals), ("uptime_secs", ofNat uptime)]

def rejection (r : Rejection) : Json :=
  ofMembers [("error", ofString r.kind), ("message", ofString r.message)]

end Document

/-- The response that tells of a rejection. -/
def Response.ofRejection (r : Rejection) : Response := ⟨r.status, .json (Document.rejection r)⟩

/-- The response that tells a result. -/
def Response.ofResult : Except Rejection Body → Response
  | .ok body => ⟨200, body⟩
  | .error r => .ofRejection r

end DelegatedVoting.Gateway
