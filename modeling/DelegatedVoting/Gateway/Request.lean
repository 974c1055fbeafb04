import DelegatedVoting.Bytes

/-!
# Requests

What a client sends: a method, an address, and perhaps content.

* `Method`, `Request`;
* `Request.path`, `Request.query`: the parts of the address;
* `Route`, `Route.ofPath?`: what a path leads to;
* `Route.admits`: the methods of a route.
-/

namespace DelegatedVoting.Gateway

/-- The methods that matter. -/
inductive Method
  | get
  | head
  | post
  | other
  deriving DecidableEq, Repr

/-- The method of the given name. -/
def Method.ofName (name : String) : Method :=
  if name = "GET" then .get
  else if name = "HEAD" then .head
  else if name = "POST" then .post
  else .other

/-- What a client sends. -/
structure Request where
  method : Method
  target : String
  /-- The kind of the content, as the client says. -/
  contentType : Option String
  body : Bytes
  deriving DecidableEq, Repr

namespace Request

/-- Whether a character may stand in the scheme of an address. -/
def isSchemeChar (c : Char) : Bool := c.isAlphanum || c = '+' || c = '-' || c = '.'

/-- An address without the scheme and the host that may stand in front of it. -/
def within (target : List Char) : List Char :=
  match target.dropWhile isSchemeChar with
  | ':' :: '/' :: '/' :: rest =>
    match rest.dropWhile fun c => c ≠ '/' && c ≠ '?' with
    | '/' :: rest => '/' :: rest
    | rest => '/' :: rest
  | _ => target

/-- The address without the part that is for the client only, and without the host. -/
def address (r : Request) : List Char := within (r.target.toList.takeWhile (· ≠ '#'))

/-- The path of the address. -/
def path (r : Request) : List Char := r.address.takeWhile (· ≠ '?')

/-- What follows the path after a question mark. -/
def query (r : Request) : List Char := (r.address.dropWhile (· ≠ '?')).drop 1

end Request

/-! ### Routes -/

/-- What a path leads to, with the parts of the path that are left open. -/
inductive Route
  | list
  | proposal (id : List Char)
  | tally (id : List Char)
  | ballots (id voter : List Char)
  | propose
  | vote
  | delegate
  | finalize
  | health
  | metrics
  deriving DecidableEq, Repr

namespace Route

/-- What the parts of a path between slashes lead to. The last part must not be empty. -/
def ofParts? : List (List Char) → Option Route
  | [part] =>
    if part = [] ∨ part = "proposals".toList then some .list
    else if part = "propose".toList then some .propose
    else if part = "vote".toList then some .vote
    else if part = "delegate".toList then some .delegate
    else if part = "finalize".toList then some .finalize
    else if part = "health".toList then some .health
    else if part = "metrics".toList then some .metrics
    else none
  | [part, id] => if part = "proposals".toList ∧ id ≠ [] then some (.proposal id) else none
  | [part, id, what] =>
    if part = "proposals".toList ∧ what = "tally".toList then some (.tally id) else none
  | [part, id, what, voter] =>
    if part = "proposals".toList ∧ what = "ballots".toList ∧ voter ≠ [] then
      some (.ballots id voter)
    else none
  | _ => none

/-- What a path leads to. -/
def ofPath? (path : List Char) : Option Route :=
  match path with
  | '/' :: rest => ofParts? (rest.splitOn '/')
  | _ => none

/-- Whether the route is there to change something. -/
def isWrite : Route → Bool
  | .propose | .vote | .delegate | .finalize => true
  | _ => false

/-- Whether a method may be used on a route. Whatever can be read can also be asked for without
its content. -/
def admits (route : Route) (method : Method) : Bool :=
  if route.isWrite then method = .post else method = .get || method = .head

end Route

end DelegatedVoting.Gateway
