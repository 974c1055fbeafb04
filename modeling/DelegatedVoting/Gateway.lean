import DelegatedVoting.Gateway.Response
import DelegatedVoting.Metrics.Exposition

/-!
# The gateway

The gateway answers requests: it finds the route, reads the call, lets the engine do it, and tells
the result. It counts what it does.

* `Gateway`: the executor and the metrics;
* `Moment`: what only the world around a request knows;
* `Gateway.perform`: the result of a call;
* `Gateway.serve`: the response to a request.
-/

namespace DelegatedVoting

/-- What answers requests. -/
structure Gateway where
  executor : Executor
  /-- The metrics, unless they are off. -/
  metrics : Option Metrics

namespace Gateway

/-- The metrics of a gateway in front of an engine, unless they are off. -/
def metricsOf (withMetrics : Bool) (e : Engine) : Option Metrics :=
  if withMetrics then some (Metrics.empty.record (.opened (UInt64.ofNat e.openCount))) else none

/-- The gateway in front of an engine, unless the limit is too large for an executor. -/
def new? (limit : Nat) (withMetrics : Bool) (e : Engine) : Option Gateway :=
  (Executor.ofLimit? limit).map fun executor => ⟨executor, metricsOf withMetrics e⟩

/-- Count an event, unless metrics are off. -/
def observe (e : Event) (g : Gateway) : Gateway := { g with metrics := g.metrics.map (·.record e) }

/-- Admit no more calls of the engine. -/
def close (g : Gateway) : Gateway := { g with executor := g.executor.close }

/-- What only the world around a request knows. -/
structure Moment where
  now : Timestamp
  /-- A name that no proposal has. -/
  fresh : ProposalId
  /-- How long the gateway has been there, in seconds. -/
  uptime : Nat
  /-- How long it takes to finalize a proposal. -/
  duration : Microseconds

/-- The result of a call, and the gateway, the engine and the store after it. -/
structure Performed (σ : Type) where
  result : Except Rejection Body
  gateway : Gateway
  engine : Engine
  store : σ

variable {σ α : Type} [Store σ]

/-- Look something up in the engine. -/
def look (g : Gateway) (e : Engine) (s : σ) (key : Option ProposalId)
    (read : Except Rejection Json) : Performed σ :=
  match g.executor.run key (some read) with
  | (.error f, executor) => ⟨.error (.executor f), { g with executor }, e, s⟩
  | (.ok r, executor) => ⟨.json <$> r, { g with executor }, e, s⟩

/-- Change something by means of the engine. What has been done is counted and told. -/
def change (g : Gateway) (e : Engine) (s : σ) (key : Option ProposalId) (step : Step σ α)
    (event : α → Event) (tell : α → Json) : Performed σ :=
  match g.executor.run key (some step) with
  | (.error f, executor) => ⟨.error (.executor f), { g with executor }, e, s⟩
  | (.ok step, executor) =>
    match step.answer with
    | .error r => ⟨.error (.refused r), { g with executor }, step.engine, step.store⟩
    | .ok a =>
      ⟨.ok (.json (tell a)), observe (event a) { g with executor }, step.engine, step.store⟩

/-- Do what a call asks for. -/
def perform (g : Gateway) (e : Engine) (s : σ) (m : Moment) : Call → Performed σ
  | .list page =>
    g.look e s none ((Document.page <$> Listing.Page.take e.list Proposal.sequence page).mapError
      fun x => .invalid (.cursor x))
  | .proposal p => g.look e s (some p) ((Document.proposal <$> e.proposal p).mapError .refused)
  | .preview p => g.look e s (some p) ((Document.preview <$> e.preview p).mapError .refused)
  | .history p v =>
    g.look e s (some p) ((Document.history p v <$> e.history p v).mapError .refused)
  | .propose proposer statement =>
    g.change e s none (e.propose s m.now m.fresh proposer statement) (fun _ => .created)
      Document.proposal
  | .vote p v isYes =>
    g.change e s (some p) (e.vote s m.now p v isYes) Event.ofAction (Document.accepted p)
  | .delegate p v delegate =>
    g.change e s (some p) (e.delegate s m.now p v delegate) Event.ofAction (Document.accepted p)
  | .finalize p v =>
    g.change e s (some p) (e.finalize s m.now p v) (fun t => .finalized t.outcome m.duration)
      Document.tally
  | .health => ⟨.ok (.json (Document.health e.count m.uptime)), g, e, s⟩
  | .metrics =>
    ⟨match g.metrics with
      | some metrics => .ok (.text metrics.exposition)
      | none => .error .metricsDisabled, g, e, s⟩

/-- Do what a request asks for on a route. -/
def enter (g : Gateway) (e : Engine) (s : σ) (m : Moment) (r : Request) (route : Route) :
    Performed σ :=
  match Call.ofRequest r route with
  | .ok call => g.perform e s m call
  | .error x => ⟨.error (.invalid x), g, e, s⟩

/-- A response, and the gateway, the engine and the store after it. -/
structure Served (σ : Type) where
  response : Response
  gateway : Gateway
  engine : Engine
  store : σ

/-- Answer a request. A rejection is counted by its kind. -/
def serve (g : Gateway) (e : Engine) (s : σ) (m : Moment) (r : Request) : Served σ :=
  match Route.ofPath? r.path with
  | none => ⟨⟨404, .empty⟩, g, e, s⟩
  | some route =>
    if route.admits r.method then
      let done := g.enter e s m r route
      let response := Response.ofResult done.result
      ⟨if r.method = .head then { response with body := .empty } else response,
        match done.result with
        | .ok _ => done.gateway
        | .error x => observe (.rejected x.kind) done.gateway,
        done.engine, done.store⟩
    else ⟨⟨405, .empty⟩, g, e, s⟩

end Gateway

end DelegatedVoting
