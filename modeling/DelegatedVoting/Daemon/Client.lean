import DelegatedVoting.Daemon.Locator
import DelegatedVoting.Gateway

/-!
# The client of a node

The client asks a node for something and tells what the node has answered.

* `Client.Action`: what can be asked for;
* `Client.request`, `Client.requestTo?`: the request of an action, and whether a node gets it;
* `Client.result`: what a response tells;
* `Client.run`: an action on the node at an address.
-/

namespace DelegatedVoting.Client

open Gateway

/-- What a node can be asked for. -/
inductive Action
  | list
  | propose (proposer : ParticipantId) (statement : String)
  | vote (proposal : String) (voter : ParticipantId) (isYes : Bool)
  | delegate (proposal : String) (voter delegate : ParticipantId)
  | finalize (proposal : String) (finalizer : ParticipantId)
  deriving DecidableEq, Repr

namespace Action

/-- The path of an action. -/
def path : Action → String
  | .list => "/proposals"
  | .propose .. => "/propose"
  | .vote .. => "/vote"
  | .delegate .. => "/delegate"
  | .finalize .. => "/finalize"

/-- The document that an action sends, if it sends one. -/
def content : Action → Option Json
  | .list => none
  | .propose proposer statement => some (Content.propose.write (proposer, statement))
  | .vote proposal voter isYes => some (Content.vote.write (proposal, voter, isYes))
  | .delegate proposal voter proxy => some (Content.delegate.write (proposal, voter, proxy))
  | .finalize proposal finalizer => some (Content.finalize.write (proposal, finalizer))

/-- The name of the method of an action. -/
def method (a : Action) : String := if a.content.isSome then "POST" else "GET"

end Action

/-- The address of a node without slashes at its end. -/
def base (url : String) : String :=
  String.ofList ((url.toList.reverse.dropWhile (· = '/')).reverse)

/-- The address of an action. -/
def address (url : String) (a : Action) : String := base url ++ a.path

/-- The request of an action, where `target` is the address within the node. -/
def request (target : String) (a : Action) : Request where
  method := .ofName a.method
  target := target
  contentType := a.content.map fun _ => "application/json"
  body := a.content.elim [] fun v => Text.Utf8.encode (String.ofList v.write)

/-- The request of an action that the node at `home` gets, if the address leads there. -/
def requestTo? (home url : String) (a : Action) : Option Request :=
  (Locator.target? home (address url a)).map fun target => request target a

/-- The words for a status. -/
def reason : Nat → String
  | 200 => "OK"
  | 400 => "Bad Request"
  | 404 => "Not Found"
  | 405 => "Method Not Allowed"
  | 409 => "Conflict"
  | 500 => "Internal Server Error"
  | _ => ""

/-- The message of a document that tells of a rejection. -/
def messageIn : Json → String
  | .object members _ =>
    match members.lookup (Json.pieces "message".toList) with
    | some (.text pieces) => ((Json.textOf? pieces).map String.ofList).getD "request failed"
    | _ => "request failed"
  | _ => "request failed"

/-- What a response tells: a document, or what went wrong. -/
def result (r : Response) : Except String Json :=
  match r.body with
  | .json document =>
    if 200 ≤ r.status ∧ r.status < 300 then .ok document
    else .error (toString r.status ++ " " ++ reason r.status ++ ": " ++ messageIn document)
  | _ => .error "node returned a non-JSON body"

/-- Do an action, where `answer` is the answer of the node at the address, if there is one. -/
def run (url : String) (a : Action) (answer : Option Response) : Except String Json :=
  match answer with
  | some r => result r
  | none => .error (a.method ++ " " ++ address url a)

end DelegatedVoting.Client
