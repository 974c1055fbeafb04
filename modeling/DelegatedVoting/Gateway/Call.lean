import DelegatedVoting.Gateway.MediaType
import DelegatedVoting.Gateway.Query
import DelegatedVoting.Gateway.Request
import DelegatedVoting.Json.Records
import DelegatedVoting.Text.Quoted

/-!
# Calls

A request denotes a call: one thing to do or to look up. What a call needs is read from the path,
the query or the content of the request, and what cannot be read is reported.

* `Call`: what a request denotes;
* `BadRequest`: why a request denotes nothing;
* `Content`: the shapes of the contents of requests;
* `Call.ofRequest`: the call that a request denotes on a route.
-/

namespace DelegatedVoting.Gateway

/-- What a request denotes. -/
inductive Call
  | list (page : Listing.PageRequest)
  | proposal (p : ProposalId)
  | preview (p : ProposalId)
  | history (p : ProposalId) (v : ParticipantId)
  | propose (proposer : ParticipantId) (statement : String)
  | vote (p : ProposalId) (v : ParticipantId) (isYes : Bool)
  | delegate (p : ProposalId) (v delegate : ParticipantId)
  | finalize (p : ProposalId) (v : ParticipantId)
  | health
  | metrics
  deriving DecidableEq

/-- Why a request denotes nothing. -/
inductive BadRequest
  /-- The content does not claim to be JSON. -/
  | contentType
  | tooLong
  | content (fault : Json.Fault)
  | query
  /-- A part of the path is no text. -/
  | pathText (part : String)
  /-- A part of the path is no number. -/
  | pathNumber (place : Nat) (text : String)
  | identifier (e : IdentifierError)
  | cursor (e : Listing.MalformedCursor)
  deriving DecidableEq, Repr

/-- The report of a request that denotes nothing. -/
def BadRequest.message : BadRequest → String
  | .contentType => "Expected request with `Content-Type: application/json`"
  | .tooLong => "Failed to buffer the request body: length limit exceeded"
  | .content .malformed => "Failed to parse the request body as JSON"
  | .content .mismatch => "Failed to deserialize the JSON body into the target type"
  | .query => "Failed to deserialize query string"
  | .pathText part => "Invalid URL: Invalid UTF-8 in `" ++ part ++ "`"
  | .pathNumber place text =>
    "Invalid URL: Cannot parse value at index " ++ toString place ++ " with value `" ++
      String.ofList (Text.Quoted.quote text.toList) ++ "` to a `u32`"
  | .identifier e => e.message
  | .cursor e => e.message

/-! ### Contents -/

namespace Content

open Json

def propose : Shape (ParticipantId × String) :=
  (Shape.record [.required "proposer_id" .word32, .required "statement" .text]).along
    (fun v => (v.1, v.2.1)) (fun v => (v.1, v.2, ()))

def vote : Shape (String × ParticipantId × Bool) :=
  (Shape.record [.required "proposal_id" .text, .required "voter_id" .word32,
    .required "is_yes" .flag]).along
    (fun v => (v.1, v.2.1, v.2.2.1)) (fun v => (v.1, v.2.1, v.2.2, ()))

/-- The delegate has an older name, too. -/
def delegate : Shape (String × ParticipantId × ParticipantId) :=
  (Shape.record [.required "proposal_id" .text, .required "voter_id" .word32,
    { keys := ["delegate_id", "delegator_id"], Value := UInt32, shape := .word32 }]).along
    (fun v => (v.1, v.2.1, v.2.2.1)) (fun v => (v.1, v.2.1, v.2.2, ()))

def finalize : Shape (String × ParticipantId) :=
  (Shape.record [.required "proposal_id" .text, .required "finalizer_id" .word32]).along
    (fun v => (v.1, v.2.1)) (fun v => (v.1, v.2, ()))

end Content

/-! ### Reading -/

/-- The largest number of bytes of the content of a request. -/
def maxBodyLength : Nat := 2097152

/-- The content of a request. Whatever follows the first value is left alone. -/
def Request.content {α : Type} (r : Request) (shape : Json.Shape α) : Except BadRequest α :=
  if ¬ (r.contentType.bind MediaType.read?).any MediaType.isJson then .error .contentType
  else if maxBodyLength < r.body.length then .error .tooLong
  else (shape.read (.ofGlyphs (Text.Utf8.glyphs r.body))).mapError .content

/-- The text of a part of the path. -/
def pathText (name : String) (part : List Char) : Except BadRequest String :=
  (Text.Percent.decodeText part).mapError fun _ => .pathText name

/-- The proposal that a text names. Blanks around the name are dropped first. -/
def proposalNamed (text : String) : Except BadRequest ProposalId :=
  (ProposalId.parse (String.ofList (Text.trim text.toList))).mapError .identifier

/-- The call that a request denotes on a route. -/
def Call.ofRequest (r : Request) : Route → Except BadRequest Call
  | .list =>
    match pageRequest? r.query with
    | some page => pure (.list page)
    | none => throw .query
  | .proposal id => do
    let p ← proposalNamed (← pathText "id" id)
    pure (.proposal p)
  | .tally id => do
    let p ← proposalNamed (← pathText "id" id)
    pure (.preview p)
  | .ballots id voter => do
    let id ← pathText "id" id
    let voter ← pathText "voter_id" voter
    match ParticipantId.read? voter.toList with
    | none => throw (.pathNumber 1 voter)
    | some v => do
      let p ← proposalNamed id
      pure (.history p v)
  | .propose => do
    let (proposer, statement) ← r.content Content.propose
    pure (.propose proposer statement)
  | .vote => do
    let (id, v, isYes) ← r.content Content.vote
    let p ← proposalNamed id
    pure (.vote p v isYes)
  | .delegate => do
    let (id, v, proxy) ← r.content Content.delegate
    let p ← proposalNamed id
    pure (.delegate p v proxy)
  | .finalize => do
    let (id, v) ← r.content Content.finalize
    let p ← proposalNamed id
    pure (.finalize p v)
  | .health => pure .health
  | .metrics => pure .metrics

end DelegatedVoting.Gateway
