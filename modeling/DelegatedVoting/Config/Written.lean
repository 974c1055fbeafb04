import DelegatedVoting.Config
import DelegatedVoting.Toml.Document

/-!
# Written configurations

A configuration is written as a TOML document with one line for each setting. A document may leave
out settings and may hold other values, which mean nothing.

* `Config.ofTable?`: the configuration of a table;
* `Config.read?`: the configuration of a text;
* `Config.write?`: the text of a configuration whose numbers fit TOML.
-/

namespace DelegatedVoting

open Toml

/-! ### Reading -/

namespace Setting

def text? : Item → Option String
  | .text s => some s
  | _ => none

def flag? : Item → Option Bool
  | .flag b => some b
  | _ => none

/-- A number below a bound. -/
def natural? (bound : Nat) : Item → Option Nat
  | .integer n => if 0 ≤ n ∧ n < bound then some n.toNat else none
  | _ => none

def word16? (v : Item) : Option UInt16 := (natural? UInt16.size v).map UInt16.ofNat

def word64? (v : Item) : Option UInt64 := (natural? UInt64.size v).map UInt64.ofNat

/-- Whether a value holds nothing. -/
def isEmpty : Item → Bool
  | .array [] => true
  | .tables [] => true
  | .table t => t.entries.isEmpty
  | _ => false

/-- The policy of the given name. -/
def policyNamed? (name : String) : Option FinalizePolicy :=
  [FinalizePolicy.anyone, .proposerOnly].find? fun p => p.name = name

/-- A policy is given by its name. The name may also be the key of a table that holds nothing else
and says nothing about it. -/
def policy? : Item → Option FinalizePolicy
  | .text s => policyNamed? s
  | .table t =>
    match t.entries with
    | [(name, v)] => if isEmpty v then policyNamed? name else none
    | _ => none
  | _ => none

/-- The value of a setting, or its default where the table says nothing. -/
def get {α : Type} (t : Toml.Table) (key : String) (read : Item → Option α) (fallback : α) :
    Option α :=
  match t.get? key with
  | some v => read v
  | none => some fallback

end Setting

namespace Config

/-- The configuration of a table. -/
def ofTable? (t : Toml.Table) : Option Config := do
  let standard : Config := {}
  let dataDir ← Setting.get t "data_dir" Setting.text? standard.dataDir
  let enableRpc ← Setting.get t "enable_rpc" Setting.flag? standard.enableRpc
  let rpcBind ← Setting.get t "rpc_bind" Setting.text? standard.rpcBind
  let rpcPort ← Setting.get t "rpc_port" Setting.word16? standard.rpcPort
  let logFormat ← Setting.get t "log_format" Setting.text? standard.logFormat
  let logLevel ← Setting.get t "log_level" Setting.text? standard.logLevel
  let enableMetrics ← Setting.get t "enable_metrics" Setting.flag? standard.enableMetrics
  let maxConcurrent ← Setting.get t "max_concurrent" Setting.word64? standard.maxConcurrent
  let maxStatementLength ←
    Setting.get t "max_statement_len" Setting.word64? standard.maxStatementLength
  let finalizePolicy ← Setting.get t "finalize_policy" Setting.policy? standard.finalizePolicy
  let mapSize ← Setting.get t "lmdb_map_size" Setting.word64? standard.mapSize
  pure ⟨dataDir, enableRpc, rpcBind, rpcPort, logFormat, logLevel, enableMetrics, maxConcurrent,
    maxStatementLength, finalizePolicy, mapSize⟩

/-- The configuration of a text. -/
def read? (text : String) : Option Config := Document.read? text >>= ofTable?

/-- The configuration of a text, or the news that there is none. -/
def read (text : String) : Except ConfigError Config := (read? text).elim (.error .malformed) .ok

/-! ### Writing -/

/-- The written form of a truth value. -/
def writeFlag (b : Bool) : List Char := if b then "true".toList else "false".toList

/-- The written form of a number that fits TOML. -/
def writeNumber? (n : Nat) : Option (List Char) :=
  if n ≤ Int64.maxValue.toInt then some (Nat.toDigits 10 n) else none

/-- The line of a setting. -/
def writeLine (key : String) (value : List Char) : List Char :=
  key.toList ++ [' ', '=', ' '] ++ value ++ ['\n']

/-- The text of a configuration whose numbers fit TOML. -/
def write? (c : Config) : Option String := do
  let text (s : String) : List Char := Text.write s.toList
  let port ← writeNumber? c.rpcPort.toNat
  let concurrent ← writeNumber? c.maxConcurrent.toNat
  let statement ← writeNumber? c.maxStatementLength.toNat
  let size ← writeNumber? c.mapSize.toNat
  pure (String.ofList ([
    writeLine "data_dir" (text c.dataDir),
    writeLine "enable_rpc" (writeFlag c.enableRpc),
    writeLine "rpc_bind" (text c.rpcBind),
    writeLine "rpc_port" port,
    writeLine "log_format" (text c.logFormat),
    writeLine "log_level" (text c.logLevel),
    writeLine "enable_metrics" (writeFlag c.enableMetrics),
    writeLine "max_concurrent" concurrent,
    writeLine "max_statement_len" statement,
    writeLine "finalize_policy" (text c.finalizePolicy.name),
    writeLine "lmdb_map_size" size].flatten))

/-- Whether the text of a configuration is read as the same configuration. -/
def isRestored (c : Config) : Bool := (c.write? >>= read?) = some c

end Config

end DelegatedVoting
