import DelegatedVoting.Config
import DelegatedVoting.Engine.Recovery
import DelegatedVoting.Gateway
import DelegatedVoting.Node.Binding
import DelegatedVoting.Node.DataFolder
import DelegatedVoting.Shutdown
import DelegatedVoting.Store.Integrity

/-!
# Nodes

A node opens its data folder, looks over the tables, rebuilds the engine from them, and answers
requests until it is told to stop.

* `NodeError`: why a node cannot go on;
* `Node`, `Node.new`: a node, and the node of a configuration;
* `Node.start`, `Node.stop`, `Node.serve`: its life;
* `Node.StartFault`: why it does not begin.
-/

namespace DelegatedVoting

/-- Why a node cannot go on. -/
inductive NodeError
  | governance (r : Refusal)
  | tables (e : TableError)
  /-- The address cannot be used, for a reason that the system tells. -/
  | address (reason : String)
  | config (e : ConfigError)
  | folder (p : DataFolder.Problem)
  | integrity (defects : List Defect)
  deriving DecidableEq

namespace NodeError

/-- The report of a node that cannot go on. -/
def message : NodeError → String
  | .governance r => "governance error: " ++ r.message
  | .tables e => "LMDB error: " ++ e.message
  | .address reason => "RPC server error: " ++ reason
  | .config e => e.message
  | .folder p => "integrity check failed: " ++ p.message
  | .integrity defects =>
    "integrity check failed: " ++ "; ".intercalate (defects.map Defect.message)

end NodeError

/-- A node. -/
structure Node where
  config : Config
  engine : Engine
  store : Tables
  /-- The place of the file that holds the tables. -/
  file : List String
  metrics : Option Metrics
  shutdown : Shutdown
  /-- The host on which requests are awaited, and what runs the calls. -/
  listening : Option (Host × Executor)

namespace Node

/-- The node of a configuration with the tables that have been opened. -/
def ofTables (c : Config) (file : List String) (store : Tables) : Except NodeError Node := do
  let inspection := store.inspect
  if ¬ inspection.isHealthy then throw (.integrity inspection.defects)
  let engine ← (Engine.recover c.rules store).mapError .governance
  pure ⟨c, engine, store, file, Gateway.metricsOf c.enableMetrics engine, {}, none⟩

/-- The node of a configuration, and the files after its data folder has been opened. -/
def new (c : Config) (fs : Files) : Except NodeError Node × Files :=
  match DataFolder.check c.dataDir fs with
  | .error p => (.error (.folder p), fs)
  | .ok () =>
    match DataFolder.openTables c.dataDir c.mapSize.toNat fs with
    | (.error e, fs) => (.error (.tables e), fs)
    | (.ok (file, store), fs) => (ofTables c file store, fs)

/-- The files with the tables of the node as they are now. -/
def save (n : Node) (fs : Files) : Files := fs.put n.file (.tables n.store)

/-- Why a node does not start. -/
inductive StartFault
  | refused (e : NodeError)
  /-- More calls may run at the same time than an executor can count. -/
  | excess
  deriving DecidableEq

/-- Whether requests are awaited, and will be. -/
def isListening (n : Node) : Bool := n.listening.isSome && !n.shutdown.isTriggered

/-- Await requests, unless the configuration forbids it. A port can only be bound once, unless any
port will do. -/
def start (n : Node) : Except StartFault Node :=
  if n.config.enableRpc then do
    match Executor.ofLimit? n.config.maxConcurrent.toNat with
    | none => throw .excess
    | some executor =>
      let address ← n.config.address.mapError fun e => .refused (.config e)
      (Binding.check address.host).mapError fun p => .refused (.address p.message)
      if n.isListening ∧ address.port ≠ 0 then
        throw (.refused (.address Binding.Problem.taken.message))
      pure { n with listening := some (address.host, executor) }
  else pure n

/-- Await no more requests. A node that was stopped once remains so. -/
def stop (n : Node) : Node := { n with shutdown := n.shutdown.trigger, listening := none }

/-- Answer a request, if requests are awaited and come there. -/
def serve (n : Node) (m : Gateway.Moment) (r : Gateway.Request) :
    Option (Gateway.Response × Node) :=
  match n.listening with
  | some (host, executor) =>
    if n.shutdown.isTriggered || !Binding.isReachable host then none
    else
      let done := Gateway.serve ⟨executor, n.metrics⟩ n.engine n.store m r
      some (done.response,
        { n with
          engine := done.engine, store := done.store, metrics := done.gateway.metrics
          listening := some (host, done.gateway.executor) })
  | none => none

end Node

end DelegatedVoting
