import DelegatedVoting.Config.File
import DelegatedVoting.Daemon.CommandLine
import DelegatedVoting.Log.Filter
import DelegatedVoting.Node

/-!
# The daemon

What the program does from its start to its end, apart from the requests that a running node
answers in between.

* `Daemon.Outcome`: how the program ends, and what it prints;
* `Daemon.configuration`: the configuration of an invocation;
* `Daemon.Boot`, `Daemon.boot`: how far a node comes;
* `Daemon.run`: the program.
-/

namespace DelegatedVoting.Daemon

/-- How the program ends, and what it prints. -/
structure Outcome where
  /-- The number that the program ends with. -/
  code : Nat
  error : Option String := none
  document : Option Json := none
  /-- The lines of the log, if it is written as JSON. -/
  log : List Log.Line := []

namespace Outcome

/-- The program ends because of an error. -/
def failed (message : String) : Outcome := { code := 1, error := some message }

/-- The program breaks off. -/
def brokenOff : Outcome := { code := 101 }

/-- The program does not understand what it shall do, or only tells about itself. -/
def ofStop : Arguments.Stop → Outcome
  | .usage => { code := 2 }
  | .help => { code := 0 }

/-- The outcome with a line of the log in front. -/
def after (line : List Log.Line) (o : Outcome) : Outcome := { o with log := line ++ o.log }

end Outcome

/-- The configuration of an invocation. What is wrong with a file is told in a word. -/
def configuration (s : Settings) (fs : Files) : Except String Config :=
  match s.config with
  | none => .ok (s.over {})
  | some path =>
    match Config.ofFile path fs with
    | .ok c => .ok (s.over c)
    | .error _ => .error ("loading " ++ path)

/-- The name under which the daemon writes to the log. -/
def target : String := "liquid_daemon"

/-- What is told when a node starts. -/
def greeting (c : Config) : String :=
  let rpc := if c.enableRpc then c.rpcBind ++ ":" ++ toString c.rpcPort.toNat else "off"
  let metrics := if c.enableMetrics then "on" else "off"
  "starting liquid node (RPC:" ++ rpc ++ ", metrics:" ++ metrics ++ ")"

/-- What is told when a node has stopped. -/
def farewell : String := "liquid daemon exited cleanly"

/-- The variable of the environment that sets the filter of the log. -/
def filterVariable : String := "RUST_LOG"

/-- The filter of the log: that of the environment if it is well-formed, or else that of the
configuration. There is none where the text of a filter cannot be cut into its parts. -/
def filter (c : Config) (environment : String → Option String) : Option Log.Filter :=
  match (environment filterVariable).map Log.Filter.readStrict with
  | some (.ok f) => some f
  | some (.error .cut) => none
  | some (.error .malformed) | none => Log.Filter.read? c.logLevel

/-- The fields of a line of the log. -/
def fieldNames : List String := ["message"]

/-- The lines that a message adds to a log written as JSON. -/
def record (format : LogFormat) (f : Log.Filter) (message : String) : List Log.Line :=
  if format = .json ∧ f.keeps target fieldNames .info then [⟨.info, message⟩] else []

/-- The written form of a line of a log. -/
def written (l : Log.Line) : String :=
  String.ofList (Json.write (.ofMembers [("level", .ofString l.level.name),
    ("fields", .ofMembers [("message", .ofString l.message)]), ("target", .ofString target)]))

/-- How far a node comes: it awaits requests, or the program ends. -/
inductive Boot
  /-- The node awaits requests; so far the log has the given lines, and it will have the others at
  the end. -/
  | running (node : Node) (files : Files) (before after : List Log.Line)
  | ended (o : Outcome)

/-- Start a node with a log that is written in some format and filtered. -/
def bootWith (c : Config) (format : LogFormat) (f : Log.Filter) (fs : Files) : Boot :=
  let before := record format f (greeting c)
  match Node.new c fs with
  | (.error e, _) => .ended ((Outcome.failed e.message).after before)
  | (.ok node, fs) =>
    match node.start with
    | .error (.refused e) => .ended ((Outcome.failed e.message).after before)
    | .error .excess => .ended (Outcome.brokenOff.after before)
    | .ok node => .running node fs before (record format f farewell)

/-- Start a node. -/
def boot (s : Settings) (environment : String → Option String) (fs : Files) : Boot :=
  match configuration s fs with
  | .error e => .ended (.failed e)
  | .ok c =>
    match LogFormat.read c.logFormat, filter c environment with
    | .error e, _ => .ended (.failed e.message)
    | .ok _, none => .ended .brokenOff
    | .ok format, some f => bootWith c format f fs

/-- The outcome of a client: what a node has answered, or what went wrong. -/
def client (url : String) (action : Client.Action) (answer : Option Gateway.Response) : Outcome :=
  match Client.run url action answer with
  | .ok document => { code := 0, document := some document }
  | .error message => .failed message

/-- The outcome of a node that is told to stop at once. -/
def runNode (s : Settings) (environment : String → Option String) (fs : Files) : Outcome :=
  match boot s environment fs with
  | .ended o => o
  | .running _ _ before after => { code := 0, log := before ++ after }

/-- The outcome of the program, where `ask` tells what the node at an address answers. -/
def run (arguments : List String) (environment : String → Option String) (fs : Files)
    (ask : String → Client.Action → Option Gateway.Response) : Outcome :=
  match CommandLine.parse arguments environment with
  | .error stop => .ofStop stop
  | .ok ⟨s, .runNode⟩ => runNode s environment fs
  | .ok ⟨_, .client url action⟩ => client url action (ask url action)

end DelegatedVoting.Daemon
