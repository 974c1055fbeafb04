import DelegatedVoting.Config
import DelegatedVoting.Daemon.Arguments
import DelegatedVoting.Daemon.Client

/-!
# The command line

The program runs a node or asks one for something. Options in front of the command take precedence
over variables of the environment, and these over a configuration file.

* `Settings`, `Settings.over`: the settings that are given, and the configuration with them;
* `Command`, `Invocation`;
* `CommandLine.parse`: what the arguments and the environment ask for.
-/

namespace DelegatedVoting

/-- The settings that are given on the command line or by the environment. -/
structure Settings where
  /-- The path of a configuration file. -/
  config : Option String
  dataDir : Option String
  enableRpc : Option Bool
  rpcBind : Option String
  rpcPort : Option UInt16
  enableMetrics : Bool
  logFormat : Option String
  logLevel : Option String
  maxConcurrent : Option UInt64
  maxStatementLength : Option UInt64
  finalizePolicy : Option FinalizePolicy
  deriving DecidableEq, Repr

/-- A configuration with the settings that are given. -/
def Settings.over (s : Settings) (c : Config) : Config :=
  { c with
    dataDir := s.dataDir.getD c.dataDir
    enableRpc := s.enableRpc.getD c.enableRpc
    rpcBind := s.rpcBind.getD c.rpcBind
    rpcPort := s.rpcPort.getD c.rpcPort
    enableMetrics := s.enableMetrics || c.enableMetrics
    logFormat := s.logFormat.getD c.logFormat
    logLevel := s.logLevel.getD c.logLevel
    maxConcurrent := s.maxConcurrent.getD c.maxConcurrent
    maxStatementLength := s.maxStatementLength.getD c.maxStatementLength
    finalizePolicy := s.finalizePolicy.getD c.finalizePolicy }

/-- What the program shall do. -/
inductive Command
  | runNode
  | client (url : String) (action : Client.Action)
  deriving DecidableEq, Repr

/-- A command and the settings for it. -/
structure Invocation where
  settings : Settings
  command : Command
  deriving DecidableEq, Repr

namespace CommandLine

open Arguments

/-! ### Values -/

/-- A whole number below a bound, with an optional sign. There is a minus zero. -/
def signed? (bound : Nat) (text : String) : Option Nat :=
  match text.toList with
  | '-' :: '+' :: _ => none
  | '-' :: digits => Text.Decimal.readBelow 1 digits
  | digits => Text.Decimal.readBelow bound digits

/-- A number of 64 bits with an optional plus sign. -/
def word64? (text : String) : Option UInt64 :=
  (Text.Decimal.readBelow UInt64.size text.toList).map UInt64.ofNat

def word32? (text : String) : Option UInt32 := (signed? UInt32.size text).map UInt32.ofNat

def word16? (text : String) : Option UInt16 := (signed? UInt16.size text).map UInt16.ofNat

def truth? (text : String) : Option Bool :=
  if text = "true" then some true else if text = "false" then some false else none

/-- The choice of a vote: one for yes, zero for no. -/
def choice? (text : String) : Option Bool := (signed? 2 text).map (· = 1)

/-- The policy of the given name. The case of letters from A to Z does not matter. -/
def policy? (text : String) : Option FinalizePolicy :=
  let name := String.ofList (text.toList.map Char.toLower)
  if name = "anyone" then some .anyone
  else if name = "proposer_only" ∨ name = "proposer-only" then some .proposerOnly
  else none

/-! ### Options -/

/-- An option with any value. -/
def anyText (name variableName : String) : Switch := ⟨name, true, some variableName, fun _ => true⟩

/-- An option with a value that can be read. -/
def readable {α : Type} (name variableName : String) (read : String → Option α) : Switch :=
  ⟨name, true, some variableName, fun s => (read s).isSome⟩

/-- An option with a path. -/
def path (name variableName : String) : Switch :=
  ⟨name, true, some variableName, fun s => !s.isEmpty⟩

/-- The options in front of a command. -/
def switches : List Switch :=
  [path "--config" "LIQUID_CONFIG",
   path "--data-dir" "LIQUID_DATA_DIR",
   readable "--rpc" "LIQUID_ENABLE_RPC" truth?,
   anyText "--rpc-bind" "LIQUID_RPC_BIND",
   readable "--rpc-port" "LIQUID_RPC_PORT" word16?,
   ⟨"--metrics", false, some "LIQUID_ENABLE_METRICS", fun s => (truth? s).isSome⟩,
   anyText "--log-format" "LIQUID_LOG_FORMAT",
   anyText "--log-level" "LIQUID_LOG_LEVEL",
   readable "--max-concurrent" "LIQUID_MAX_CONCURRENT" word64?,
   readable "--max-statement-len" "LIQUID_MAX_STATEMENT_LEN" word64?,
   readable "--finalize-policy" "LIQUID_FINALIZE_POLICY" policy?]

/-- The options of the client. -/
def clientSwitches : List Switch := [anyText "--url" "LIQUID_URL"]

/-- The address of the node if none is given. -/
def standardUrl : String := "http://127.0.0.1:8080"

/-- The variables of the environment that set options. -/
def variableNames : List String := (switches ++ clientSwitches).filterMap Switch.variableName

/-- The settings in options. -/
def settings (g : Given) : Settings where
  config := g.get? "--config"
  dataDir := g.get? "--data-dir"
  enableRpc := g.get? "--rpc" >>= truth?
  rpcBind := g.get? "--rpc-bind"
  rpcPort := g.get? "--rpc-port" >>= word16?
  enableMetrics := ((g.get? "--metrics" >>= truth?).getD false)
  logFormat := g.get? "--log-format"
  logLevel := g.get? "--log-level"
  maxConcurrent := g.get? "--max-concurrent" >>= word64?
  maxStatementLength := g.get? "--max-statement-len" >>= word64?
  finalizePolicy := g.get? "--finalize-policy" >>= policy?

/-! ### Commands -/

/-- Whether a text is acceptable if it can be read. -/
def reads {α : Type} (read : String → Option α) (text : String) : Bool := (read text).isSome

/-- Any text is acceptable. -/
def any (_ : String) : Bool := true

/-- The names of the commands below a command, which is named by the words that lead to it. -/
def below : List String → List String
  | [] => ["node", "client", "help"]
  | ["node"] => ["run", "help"]
  | ["client"] => ["list", "propose", "vote", "delegate", "finalize", "help"]
  | _ => []

/-- Whether words lead on to a command below a command. -/
def leads (place : List String) : List String → Bool
  | [] => true
  | name :: rest => (below place).contains name && leads (place ++ [name]) rest

/-- There is help about commands, but not about other things. -/
def helpAbout {α : Type} (place rest : List String) : Except Stop α :=
  if leads place rest then throw .help else throw .usage

/-- The action of the client that free words name. -/
def action (name : String) (rest : List String) : Except Stop Client.Action := do
  match name with
  | "list" => do
    let _ ← words [] false rest
    pure .list
  | "propose" => do
    match ← words [reads word32?, any] false rest with
    | [proposer, statement] => pure (.propose ((word32? proposer).getD 0) statement)
    | _ => throw .usage
  | "vote" => do
    match ← words [any, reads word32?, reads choice?] false rest with
    | [proposal, voter, choice] =>
      pure (.vote proposal ((word32? voter).getD 0) ((choice? choice).getD false))
    | _ => throw .usage
  | "delegate" => do
    match ← words [any, reads word32?, reads word32?] false rest with
    | [proposal, voter, delegate] =>
      pure (.delegate proposal ((word32? voter).getD 0) ((word32? delegate).getD 0))
    | _ => throw .usage
  | "finalize" => do
    match ← words [any, reads word32?] false rest with
    | [proposal, finalizer] => pure (.finalize proposal ((word32? finalizer).getD 0))
    | _ => throw .usage
  | "help" => helpAbout ["client"] rest
  | _ => throw .usage

/-- The command that words name. -/
def command (environment : String → Option String) : List String → Except Stop Command
  | "node" :: rest => do
    match (← scan [] ⟨[], none, []⟩ rest).rest with
    | "run" :: rest => do
      let _ ← words [] false rest
      pure .runNode
    | "help" :: rest => helpAbout ["node"] rest
    | _ => throw .usage
  | "client" :: rest => do
    let s ← scan clientSwitches ⟨[], none, []⟩ rest
    match s.rest with
    | name :: rest => do
      let action ← action name rest
      let g ← withVariables clientSwitches environment (← s.settle)
      pure (.client ((g.get? "--url").getD standardUrl) action)
    | [] => throw .usage
  | "help" :: rest => helpAbout [] rest
  | _ => throw .usage

/-- What the arguments and the environment ask for. -/
def parse (arguments : List String) (environment : String → Option String) :
    Except Stop Invocation := do
  let s ← scan switches ⟨[], none, []⟩ arguments
  let command ← command environment s.rest
  let g ← withVariables switches environment (← s.settle)
  pure ⟨settings g, command⟩

end CommandLine

end DelegatedVoting
