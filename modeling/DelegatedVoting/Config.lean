import DelegatedVoting.Address
import DelegatedVoting.Proposal

/-!
# The configuration of a node

* `Config`: what can be set, with its defaults;
* `ConfigError`: why a configuration is refused;
* `LogFormat`, `LogFormat.read`: how a node writes its log;
* `Config.rules`, `Config.address`: what the configuration says about votes and about the address
  of the node.
-/

namespace DelegatedVoting

/-- What can be set. -/
structure Config where
  dataDir : String := "./liquid_data"
  /-- Whether requests are answered. -/
  enableRpc : Bool := true
  /-- The host on which requests are awaited. -/
  rpcBind : String := "127.0.0.1"
  rpcPort : UInt16 := 8080
  logFormat : String := "human"
  logLevel : String := "info"
  enableMetrics : Bool := false
  /-- The number of calls that may run at the same time. -/
  maxConcurrent : UInt64 := 64
  /-- The largest number of bytes of a statement. -/
  maxStatementLength : UInt64 := ({} : Rules).maxStatementLength
  finalizePolicy : FinalizePolicy := .anyone
  /-- The largest number of bytes of the tables. -/
  mapSize : UInt64 := 1073741824
  deriving DecidableEq, Repr

/-- Why a configuration is refused. -/
inductive ConfigError
  /-- The file cannot be read, for a reason that the system tells. -/
  | file (path reason : String)
  /-- The text describes no configuration. -/
  | malformed
  | host (text : String)
  | logFormat (text : String)
  deriving DecidableEq, Repr

/-- The report of a refused configuration. -/
def ConfigError.message : ConfigError → String
  | .file path reason => "config error: " ++ path ++ ": " ++ reason
  | .malformed => "config error: malformed configuration"
  | .host text => "config error: invalid rpc_bind '" ++ text ++ "': invalid IP address syntax"
  | .logFormat text =>
    "config error: unknown log format '" ++ text ++ "', expected 'human' or 'json'"

/-- How a node writes its log. -/
inductive LogFormat
  | human
  | json
  deriving DecidableEq, Repr

/-- The name of a format. -/
def LogFormat.name : LogFormat → String
  | .human => "Human"
  | .json => "Json"

/-- The format that a text names. The case of letters from A to Z does not matter. -/
def LogFormat.read (text : String) : Except ConfigError LogFormat :=
  let name := String.ofList (text.toList.map Char.toLower)
  if name = "human" ∨ name = "pretty" then .ok .human
  else if name = "json" then .ok .json
  else .error (.logFormat name)

namespace Config

/-- The rules of a vote. -/
def rules (c : Config) : Rules := ⟨c.finalizePolicy, c.maxStatementLength⟩

/-- The address at which requests are awaited. -/
def address (c : Config) : Except ConfigError Address :=
  match Host.read? c.rpcBind with
  | some host => .ok ⟨host, c.rpcPort⟩
  | none => .error (.host c.rpcBind)

end Config

end DelegatedVoting
