import DelegatedVoting.Proofs.Denotations
import DelegatedVoting.Proofs.Documents
import DelegatedVoting.Proofs.Exchanges

/-!
# Answering a request

A request does to the engine and the store what the call does that it denotes, if it denotes one,
and else nothing. The answer tells the result, and what is counted is what the answer tells.

* `Gateway.change_spec`, `look_spec`: what a gateway that admits calls makes of a step of the
  engine, and of something that is looked up;
* `Performs`: what it makes of a call of the engine;
* `Answers`, `Lookup.Answers`, `Visit.IsAnswered`: what the answer to a request has to tell;
* `Visit.Counts`: what is counted of a request;
* `Serves`, `Visit.serve_spec`: what answering a request does.
-/

namespace DelegatedVoting

namespace Executor

/-- An executor that admits calls does the call, and admits calls after it. -/
theorem run_of_open {α : Type} {e : Executor} (hopen : e.isClosed = false)
    (key : Option ProposalId) (a : α) :
    ∃ e', e.run key (some a) = (.ok a, e') ∧ e'.isClosed = false := by
  rw [run, hopen]
  refine ⟨_, rfl, ?_⟩
  cases key with
  | none => exact hopen
  | some p =>
    show ((e.acquire p).release p).isClosed = false
    unfold release
    split <;> exact hopen

end Executor

namespace Gateway

open Document

variable {σ α : Type} {g : Gateway} {e : Engine} {s : σ} {m : Moment}

/-- The gateway admits calls. -/
def IsOpen (g : Gateway) : Prop := g.executor.isClosed = false

theorem look_spec (hopen : g.IsOpen) (key : Option ProposalId) (read : Except Rejection Json) :
    (g.look e s key read).result = Body.json <$> read ∧ (g.look e s key read).engine = e ∧
      (g.look e s key read).store = s ∧ (g.look e s key read).gateway.IsOpen ∧
      (g.look e s key read).gateway.metrics = g.metrics := by
  obtain ⟨executor, hrun, hopen'⟩ := Executor.run_of_open hopen key read
  unfold look
  rw [hrun]
  exact ⟨rfl, rfl, rfl, hopen', rfl⟩

theorem change_spec (hopen : g.IsOpen) (key : Option ProposalId) (step : Step σ α)
    (event : α → Event) (tell : α → Json) :
    (g.change e s key step event tell).result =
        (step.answer.map fun a => Body.json (tell a)).mapError .refused ∧
      (g.change e s key step event tell).engine = step.engine ∧
      (g.change e s key step event tell).store = step.store ∧
      (g.change e s key step event tell).gateway.IsOpen ∧
      (g.change e s key step event tell).gateway.metrics = match step.answer with
        | .ok a => g.metrics.map (·.record (event a))
        | .error _ => g.metrics := by
  obtain ⟨executor, hrun, hopen'⟩ := Executor.run_of_open hopen key step
  unfold change
  rw [hrun]
  dsimp only
  cases step.answer with
  | error x => exact ⟨rfl, rfl, rfl, hopen', rfl⟩
  | ok a => exact ⟨rfl, rfl, rfl, hopen', rfl⟩

/-! ### What calls make -/

/-- The document tells the reply to a call of the engine. -/
def ShowsReply : Session.Event → Session.Reply → Json → Prop
  | .propose .., .proposal q, d => ShowsProposal q d
  | .vote p v _, .action a, d => ShowsAccepted p v a.seq d
  | .delegate p v _, .action a, d => ShowsAccepted p v a.seq d
  | .finalize .., .tally t, d => ShowsTally t d
  | _, _, _ => False

/-- What is counted when a call of the engine is accepted. -/
def news? (duration : Microseconds) : Session.Reply → Option Event
  | .proposal _ => some .created
  | .action a => some (.ofAction a)
  | .tally t => some (.finalized t.outcome duration)
  | .done => none

/-- What a gateway has made of a call of the engine. -/
structure Performs [Store σ] [LawfulStore σ] (before : Session σ) (event : Session.Event)
    (g : Gateway) (m : Moment) (done : Performed σ) : Prop where
  engine_eq : done.engine = (before.step event).engine
  store_eq : done.store = (before.step event).store
  isOpen : done.gateway.IsOpen
  refused : ∀ x, (before.respond event).1 = .error x →
    done.result = .error (.refused x) ∧ done.gateway.metrics = g.metrics
  accepted : ∀ reply, (before.respond event).1 = .ok reply →
    (∃ d, done.result = .ok (.json d) ∧ ShowsReply event reply d) ∧
      ∃ news, news? m.duration reply = some news ∧ Exchange.routeOf? news = callRoute? event ∧
        done.gateway.metrics = g.metrics.map (·.record news)

/-- A change that is made by means of the engine is that of the call. -/
theorem Performs.of_change [Store σ] [LawfulStore σ] (hopen : g.IsOpen) (key : Option ProposalId)
    {step : Step σ α} {count : α → Event} {tell : α → Json} {event : Session.Event}
    {reply : α → Session.Reply} {now : Timestamp}
    (hrespond : (⟨e, s, now⟩ : Session σ).respond event = Session.after ⟨e, s, now⟩ reply step)
    (hshows : ∀ a, step.answer = .ok a → ShowsReply event (reply a) (tell a))
    (hnews : ∀ a, step.answer = .ok a → news? m.duration (reply a) = some (count a) ∧
      Exchange.routeOf? (count a) = callRoute? event) :
    Performs ⟨e, s, now⟩ event g m (g.change e s key step count tell) := by
  obtain ⟨hresult, hengine, hstore, hopen', hmetrics⟩ := change_spec hopen key step count tell
  refine ⟨?_, ?_, hopen', ?_, ?_⟩
  · rw [hengine, Session.step, hrespond]
    rfl
  · rw [hstore, Session.step, hrespond]
    rfl
  · intro x hx
    rw [hrespond] at hx
    cases hanswer : step.answer with
    | ok a =>
      rw [Session.after, hanswer] at hx
      cases hx
    | error x' =>
      rw [Session.after, hanswer] at hx
      cases hx
      rw [hanswer] at hresult hmetrics
      exact ⟨hresult, hmetrics⟩
  · intro reply' hreply
    rw [hrespond] at hreply
    cases hanswer : step.answer with
    | error x =>
      rw [Session.after, hanswer] at hreply
      cases hreply
    | ok a =>
      rw [Session.after, hanswer] at hreply
      cases hreply
      rw [hanswer] at hresult hmetrics
      exact ⟨⟨tell a, hresult, hshows a hanswer⟩, count a, (hnews a hanswer).1,
        (hnews a hanswer).2, hmetrics⟩

/-- An accepted action is the one that was asked for, under some number. -/
theorem exists_of_accept [Store σ] {now : Timestamp} {p : ProposalId}
    {action : UInt64 → Ballot.Action} {a : Ballot.Action}
    (h : (e.accept s now p action).answer = .ok a) : ∃ seq, a = action seq := by
  have haccept := e.accept_spec s now p action
  generalize e.accept s now p action = step at h haccept
  cases haccept with
  | notFound => cases h
  | closed => cases h
  | store => cases h
  | done slot s' => exact ⟨_, (Except.ok.inj h).symm⟩

theorem exists_of_delegate [Store σ] {now : Timestamp} {p : ProposalId}
    {v delegate : ParticipantId} {a : Ballot.Action}
    (h : (e.delegate s now p v delegate).answer = .ok a) :
    ∃ seq, a = .delegation v delegate seq := by
  unfold Engine.delegate at h
  split at h
  · cases h
  · exact exists_of_accept h

theorem perform_of_calls [Store σ] [LawfulStore σ] {call : Call} {event : Session.Event}
    (hopen : g.IsOpen) (h : Calls m call event) :
    Performs ⟨e, s, m.now⟩ event g m (g.perform e s m call) := by
  cases h with
  | propose v text =>
    exact .of_change hopen none rfl (fun q _ => showsProposal q) fun q _ => ⟨rfl, rfl⟩
  | vote p v isYes =>
    refine .of_change hopen (some p) rfl (fun a ha => ?_) fun a ha => ?_
    · obtain ⟨seq, rfl⟩ := exists_of_accept ha
      exact showsAccepted p (.vote v isYes seq)
    · obtain ⟨seq, rfl⟩ := exists_of_accept ha
      exact ⟨rfl, rfl⟩
  | delegate p v delegate =>
    refine .of_change hopen (some p) rfl (fun a ha => ?_) fun a ha => ?_
    · obtain ⟨seq, rfl⟩ := exists_of_delegate ha
      exact showsAccepted p (.delegation v delegate seq)
    · obtain ⟨seq, rfl⟩ := exists_of_delegate ha
      exact ⟨rfl, rfl⟩
  | finalize p v =>
    exact .of_change hopen (some p) rfl (fun t _ => showsTally t) fun t _ => ⟨rfl, rfl⟩

/-! ### What answers tell -/

/-- The response that a client gets who asks for it in this way. -/
def Response.under (method : Method) (r : Response) : Response :=
  if method = .head then { r with body := .empty } else r

/-- The response has a document that shows something. -/
def Response.Tells (r : Response) (shows : Json → Prop) : Prop := ∃ d, r.body = .json d ∧ shows d

/-- The status that tells of a refusal. -/
def statusOf : Refusal → Nat
  | .notFound _ => 404
  | .ballotsClosed _ => 409
  | .alreadyFinalized _ => 409
  | .selfDelegation _ => 400
  | .notProposer _ => 400
  | .statement _ => 400
  | .store _ => 500

/-- The kind of a refusal that is told. -/
def kindOf : Refusal → String
  | .notFound _ => "not_found"
  | .ballotsClosed _ => "proposal_finalized"
  | .alreadyFinalized _ => "already_finalized"
  | .selfDelegation _ => "invalid_delegation"
  | .notProposer _ => "not_proposer"
  | .statement _ => "invalid_statement"
  | .store _ => "store"

/-- The response tells a result of the engine, or the kind of the refusal and its report. -/
def Answers {α : Type} (result : Except Refusal α) (shows : α → Json → Prop) (r : Response) :
    Prop :=
  match result with
  | .ok a => r.status = 200 ∧ r.Tells (shows a)
  | .error x => r.status = statusOf x ∧ r.Tells (ShowsError (kindOf x) x.message)

/-- The response tells that the request denotes nothing. -/
def IsBad (message : String) (r : Response) : Prop :=
  r.status = 400 ∧ r.Tells (ShowsError "invalid_request" ("invalid request: " ++ message))

/-- The response tells what is looked up. -/
def Lookup.Answers (e : Engine) : Lookup → Response → Prop
  | .list page, r =>
    match Listing.Page.take e.list Proposal.sequence page with
    | .ok page => r.status = 200 ∧ r.Tells (ShowsPage page)
    | .error x => IsBad x.message r
  | .proposal p, r => Gateway.Answers (e.proposal p) ShowsProposal r
  | .preview p, r => Gateway.Answers (e.preview p) ShowsPreview r
  | .history p v, r => Gateway.Answers (e.history p v) (ShowsHistory p v) r

/-- The response tells the result of the call that the request denotes, or what it looks up in the
engine, or how the node is, or that the request denotes nothing and looks nothing up. -/
inductive Visit.IsTold [Store σ] [LawfulStore σ] (v : Visit) (before : Session σ) (r : Response) :
    Prop
  | call {event : Session.Event} (h : v.Denotes event)
    (hanswers : Answers ((before.step (.clock v.moment.now)).respond event).1 (ShowsReply event) r)
  | lookup {l : Lookup} (h : v.LooksUp l) (hanswers : l.Answers before.engine r)
  | state (h : v.request.Seeks .health ∨ v.request.Seeks .metrics)
  | bad {message : String} (hcall : ∀ event, ¬ v.Denotes event) (hlookup : ∀ l, ¬ v.LooksUp l)
    (hbad : IsBad message r)

/-- The response is an answer to the request. Where no route leads, and where the route does not
take the method, there is a status only. -/
inductive Visit.IsAnswered [Store σ] [LawfulStore σ] (v : Visit) (before : Session σ)
    (r : Response) : Prop
  | nowhere (h : ∀ route : Route, ¬ route.LiesAt v.request.path) (hr : r = ⟨404, .empty⟩)
  | misused {route : Route} (h : route.LiesAt v.request.path)
    (hmethod : ¬ route.Takes v.request.method) (hr : r = ⟨405, .empty⟩)
  | told {route : Route} (h : route.LiesAt v.request.path)
    (hmethod : route.Takes v.request.method) {full : Response}
    (hr : r = .under v.request.method full) (htold : v.IsTold before full)

theorem isBad_ofRejection (x : BadRequest) :
    IsBad x.message (.ofRejection (.invalid x)) := ⟨rfl, _, rfl, showsError (.invalid x)⟩

theorem answers_of_error {α : Type} {shows : α → Json → Prop} (x : Refusal) :
    Answers (.error x) shows (.ofRejection (.refused x)) := by
  have hstatus : (Rejection.refused x).status = statusOf x := by cases x <;> rfl
  have hkind : x.kind = kindOf x := by cases x <;> rfl
  exact ⟨hstatus, _, rfl, hkind ▸ showsError (.refused x)⟩

/-- A result is told with a document that shows it. -/
theorem Answers.exists_json {α : Type} {a : α} {shows : α → Json → Prop} {r : Response}
    (h : Answers (.ok a) shows r) : ∃ d, r = ⟨200, .json d⟩ ∧ shows a d := by
  obtain ⟨hstatus, d, hbody, hshows⟩ := h
  exact ⟨d, by rw [← hstatus, ← hbody], hshows⟩

/-- What is looked up is told. -/
theorem answers_look {α : Type} {shows : α → Json → Prop} {tell : α → Json} (hopen : g.IsOpen)
    (key : Option ProposalId) (result : Except Refusal α) (hshows : ∀ a, shows a (tell a)) :
    Answers result shows
      (.ofResult (g.look e s key ((tell <$> result).mapError .refused)).result) := by
  rw [(look_spec hopen key _).1]
  cases result with
  | error x => exact answers_of_error x
  | ok a => exact ⟨rfl, _, rfl, hshows a⟩

theorem Lookup.answers_perform [Store σ] (hopen : g.IsOpen) (l : Lookup) :
    l.Answers e (.ofResult (g.perform e s m l.call).result) := by
  cases l with
  | list page =>
    show match Listing.Page.take e.list Proposal.sequence page with
      | .ok page => _
      | .error x => _
    unfold Lookup.call perform
    rw [(look_spec hopen none _).1]
    cases Listing.Page.take e.list Proposal.sequence page with
    | error x => exact isBad_ofRejection (.cursor x)
    | ok page => exact ⟨rfl, _, rfl, showsPage page⟩
  | proposal p => exact answers_look hopen (some p) (e.proposal p) showsProposal
  | preview p => exact answers_look hopen (some p) (e.preview p) showsPreview
  | history p v => exact answers_look hopen (some p) (e.history p v) (showsHistory p v)

/-- The result of a call of the engine is told. -/
theorem Performs.answers [Store σ] [LawfulStore σ] {before : Session σ} {event : Session.Event}
    {done : Performed σ} (h : Performs before event g m done) :
    Answers (before.respond event).1 (ShowsReply event) (.ofResult done.result) := by
  cases hanswer : (before.respond event).1 with
  | error x =>
    rw [(h.refused x hanswer).1]
    exact answers_of_error x
  | ok reply =>
    obtain ⟨⟨d, hresult, hshows⟩, -⟩ := h.accepted reply hanswer
    rw [hresult]
    exact ⟨rfl, d, rfl, hshows⟩

/-! ### Answering requests -/

/-- What is counted of a request: what the engine has accepted, or the kind of the error. -/
def Visit.Counts [Store σ] [LawfulStore σ] (v : Visit) (before : Session σ) (news : Option Event) :
    Prop :=
  match v.event? with
  | some event =>
    match ((before.step (.clock v.moment.now)).respond event).1 with
    | .ok reply => news = news? v.moment.duration reply
    | .error x => news = some (.rejected x.kind)
  | none => news = none ∨ ∃ kind, news = some (.rejected kind)

/-- What answering a request does: to the engine and the store what the call does that the request
denotes, if it denotes one. The answer tells the result, and it is counted. -/
structure Serves [Store σ] [LawfulStore σ] (before : Session σ) (g : Gateway) (v : Visit)
    (done : Served σ) : Prop where
  engine_eq : done.engine = (before.run v.events).engine
  store_eq : done.store = (before.run v.events).store
  isOpen : done.gateway.IsOpen
  isAnswered : v.IsAnswered before done.response
  counts : ∀ metrics, g.metrics = some metrics → ∃ news, v.Counts before news ∧
    done.gateway.metrics = some (metrics.recordAny news) ∧
      (v.request.method ≠ .head → Exchange.IsCounted ⟨v.request, done.response⟩ news)

theorem Route.admits_iff {route : Route} {method : Method} :
    route.admits method = true ↔ (route.isWrite = true ∧ method = .post) ∨
      (route.isWrite = false ∧ (method = .get ∨ method = .head)) := by
  unfold Route.admits
  cases route.isWrite <;> cases method <;> decide

theorem serve_of_error [Store σ] {r : Request} {route : Route} {x : BadRequest}
    (hroute : Route.ofPath? r.path = some route) (hadmits : route.admits r.method = true)
    (hcall : Call.ofRequest r route = .error x) :
    g.serve e s m r = ⟨(Response.ofRejection (.invalid x)).under r.method,
      observe (.rejected "invalid_request") g, e, s⟩ := by
  simp only [serve, enter, hroute, if_pos hadmits, hcall]
  rfl

/-- The gateway after a result has been told. -/
def told (result : Except Rejection Body) (g : Gateway) : Gateway :=
  match result with
  | .ok _ => g
  | .error x => observe (.rejected x.kind) g

theorem serve_of_ok [Store σ] {r : Request} {route : Route} {call : Call}
    (hroute : Route.ofPath? r.path = some route) (hadmits : route.admits r.method = true)
    (hcall : Call.ofRequest r route = .ok call) :
    g.serve e s m r = ⟨(Response.ofResult (g.perform e s m call).result).under r.method,
      told (g.perform e s m call).result (g.perform e s m call).gateway,
      (g.perform e s m call).engine, (g.perform e s m call).store⟩ := by
  simp only [serve, enter, hroute, if_pos hadmits, hcall]
  rfl

/-- Counting a rejection leaves the executor alone. -/
theorem isOpen_told {result : Except Rejection Body} (hopen : g.IsOpen) :
    (told result g).IsOpen := by
  cases result <;> exact hopen

theorem Response.under_of_ne {method : Method} (h : method ≠ .head) (r : Response) :
    r.under method = r := if_neg h

/-- The kind of a rejection is told. -/
theorem kind?_ofRejection (r : Request) (x : Rejection) :
    Exchange.kind? ⟨r, .ofRejection x⟩ = some x.kind := by
  have hstatus : x.status ≠ 200 := by
    cases x with
    | refused x => cases x <;> simp [Rejection.status]
    | _ => simp [Rejection.status]
  exact (if_neg hstatus).trans (showsError x).error

/-- What is counted where something is only looked up. -/
def rejectionOf? : Except Rejection Body → Option Event
  | .ok _ => none
  | .error x => some (.rejected x.kind)

/-- Where something is only looked up, nothing is counted but a rejection. -/
theorem isCounted_of_isRead {r : Request} (hpost : r.method ≠ .post)
    (result : Except Rejection Body) :
    Exchange.IsCounted ⟨r, .ofResult result⟩ (rejectionOf? result) := by
  cases result with
  | ok body => exact .nothing (fun route h => hpost h.1) rfl
  | error x => exact .rejected x.kind (kind?_ofRejection r x)

/-- What the engine has accepted is counted as such. -/
theorem isCounted_of_accepted {r : Request} {event : Session.Event} {reply : Session.Reply}
    {route : Route} {duration : Microseconds} {news : Event} {d : Json} (hpost : r.method = .post)
    (hroute : Route.ofPath? r.path = some route) (hevent : callRoute? event = some route)
    (hshows : ShowsReply event reply d) (hnews : news? duration reply = some news)
    (hrouteOf : Exchange.routeOf? news = callRoute? event) :
    Exchange.IsCounted ⟨r, ⟨200, .json d⟩⟩ (some news) := by
  rw [hevent] at hrouteOf
  have haccepted {route' : Route} (h : some route' = some route) :
      Exchange.IsAccepted ⟨r, ⟨200, .json d⟩⟩ route' :=
    ⟨hpost, hroute.trans h.symm, rfl⟩
  cases reply with
  | proposal q =>
    cases hnews
    exact .created (haccepted hrouteOf)
  | action a =>
    cases hnews
    cases a with
    | vote => exact .voted (haccepted hrouteOf)
    | delegation => exact .delegated (haccepted hrouteOf)
  | tally t =>
    cases hnews
    cases event with
    | finalize p v => exact .finalized (haccepted hrouteOf) t.outcome duration hshows.outcome
    | _ => exact hshows.elim
  | done => cases hnews

theorem Lookup.isQuery_call (l : Lookup) : l.call.IsQuery := by cases l <;> trivial

/-- Looking something up leaves the executor and the metrics alone. -/
theorem perform_gateway_of_isQuery [Store σ] (hopen : g.IsOpen) {call : Call} (h : call.IsQuery) :
    (g.perform e s m call).gateway.IsOpen ∧
      (g.perform e s m call).gateway.metrics = g.metrics := by
  cases call with
  | list => exact (look_spec hopen _ _).2.2.2
  | proposal => exact (look_spec hopen _ _).2.2.2
  | preview => exact (look_spec hopen _ _).2.2.2
  | history => exact (look_spec hopen _ _).2.2.2
  | health => exact ⟨hopen, rfl⟩
  | metrics => exact ⟨hopen, rfl⟩
  | _ => exact h.elim

namespace Visit

variable {v : Visit} {route : Route}

theorem event?_eq_none (hroute : Route.ofPath? v.request.path = some route)
    (h : ¬ (route.isWrite = true ∧ v.request.method = .post)) : v.event? = none := by
  unfold event?
  rw [hroute]
  split
  · rename_i hpost
    cases route <;> first | rfl | exact absurd ⟨rfl, hpost⟩ h
  · rfl

theorem lookup?_eq_none (hpost : v.request.method = .post) : v.lookup? = none := by
  unfold lookup?
  rw [hpost]
  exact if_neg (by decide)

theorem IsTold.isAnswered [Store σ] [LawfulStore σ] {before : Session σ} {full : Response}
    (h : v.IsTold before full) (hroute : Route.ofPath? v.request.path = some route)
    (hadmits : route.admits v.request.method = true) :
    v.IsAnswered before (full.under v.request.method) :=
  .told (Route.ofPath?_eq_some_iff.1 hroute) (Route.admits_iff_takes.1 hadmits) rfl h

theorem Denotes.isPost {event : Session.Event} (h : v.Denotes event) :
    v.request.method = .post := (route_of_event? (event?_eq_some_iff.2 h)).1

theorem LooksUp.not_denotes {l : Lookup} (h : v.LooksUp l) (event : Session.Event) :
    ¬ v.Denotes event := by
  intro hdenotes
  have hlookup := lookup?_eq_some_iff.2 h
  rw [lookup?_eq_none hdenotes.isPost] at hlookup
  cases hlookup

theorem LooksUp.not_seeks {l : Lookup} (h : v.LooksUp l) :
    ¬ (v.request.Seeks .health ∨ v.request.Seeks .metrics) := by
  have hlookup := lookup?_eq_some_iff.2 h
  rintro (hseeks | hseeks)
  · rw [lookup?, if_pos hseeks.isGet, hseeks.liesAt.ofPath?_eq] at hlookup
    cases hlookup
  · rw [lookup?, if_pos hseeks.isGet, hseeks.liesAt.ofPath?_eq] at hlookup
    cases hlookup

theorem LooksUp.exists_seeks {l : Lookup} (h : v.LooksUp l) :
    ∃ route, v.request.Seeks route ∧ route.Takes v.request.method := by
  cases h with
  | list h => exact ⟨_, h, h.isGet⟩
  | proposal h => exact ⟨_, h, h.isGet⟩
  | preview h => exact ⟨_, h, h.isGet⟩
  | history h => exact ⟨_, h, h.isGet⟩

/-- **The answer to a request that denotes a call tells the result of the call.** -/
theorem IsAnswered.answers_call [Store σ] [LawfulStore σ] {before : Session σ} {r : Response}
    {event : Session.Event} (h : v.IsAnswered before r) (hdenotes : v.Denotes event) :
    Answers ((before.step (.clock v.moment.now)).respond event).1 (ShowsReply event) r := by
  have hevent := event?_eq_some_iff.2 hdenotes
  obtain ⟨hpost, route, hroute, hcall⟩ := route_of_event? hevent
  cases h with
  | nowhere h => exact absurd (Route.ofPath?_eq_some_iff.1 hroute) (h route)
  | @misused route' h hmethod =>
    obtain rfl := Option.some.inj (hroute.symm.trans h.ofPath?_eq)
    refine absurd ?_ hmethod
    cases event <;> cases hcall <;> exact hpost
  | told _ _ hr htold =>
    rw [hr, Response.under_of_ne (by rw [hpost]; decide)]
    cases htold with
    | call h hanswers =>
      obtain rfl := Option.some.inj (hevent.symm.trans (event?_eq_some_iff.2 h))
      exact hanswers
    | lookup h => exact absurd hdenotes (h.not_denotes event)
    | state h =>
      have hget : v.request.method = .get ∨ v.request.method = .head :=
        h.elim Request.Seeks.isGet Request.Seeks.isGet
      rw [hpost] at hget
      simp at hget
    | bad hcall => exact absurd hdenotes (hcall event)

/-- **The answer to a request that looks something up tells what it looks up.** -/
theorem IsAnswered.answers_lookup [Store σ] [LawfulStore σ] {before : Session σ} {r : Response}
    {l : Lookup} (h : v.IsAnswered before r) (hlooksUp : v.LooksUp l) :
    ∃ full, r = .under v.request.method full ∧ l.Answers before.engine full := by
  obtain ⟨route, hseeks, htakes⟩ := hlooksUp.exists_seeks
  cases h with
  | nowhere h => exact absurd hseeks.liesAt (h route)
  | @misused route' h hmethod =>
    obtain rfl := Option.some.inj (hseeks.liesAt.ofPath?_eq.symm.trans h.ofPath?_eq)
    exact absurd htakes hmethod
  | @told _ _ _ full hr htold =>
    refine ⟨full, hr, ?_⟩
    cases htold with
    | call h => exact absurd h (hlooksUp.not_denotes _)
    | lookup h hanswers =>
      obtain rfl := Option.some.inj ((lookup?_eq_some_iff.2 hlooksUp).symm.trans
        (lookup?_eq_some_iff.2 h))
      exact hanswers
    | state h => exact absurd h hlooksUp.not_seeks
    | bad _ hlookup => exact absurd hlooksUp (hlookup l)

/-- A request that denotes no call is answered without the engine, and counted as bad. -/
theorem serve_spec_of_error [Store σ] [LawfulStore σ] (hopen : g.IsOpen) (now : Timestamp)
    {x : BadRequest} (hroute : Route.ofPath? v.request.path = some route)
    (hadmits : route.admits v.request.method = true) (hnone : v.event? = none)
    (hlookup : v.lookup? = none) (hcall : Call.ofRequest v.request route = .error x) :
    Serves ⟨e, s, now⟩ g v (g.serve e s v.moment v.request) := by
  have hrun : (⟨e, s, now⟩ : Session σ).run v.events = ⟨e, s, now⟩ := by simp [events, hnone]
  rw [serve_of_error hroute hadmits hcall]
  refine ⟨by rw [hrun], by rw [hrun], hopen, IsTold.isAnswered ?_ hroute hadmits, ?_⟩
  · exact .bad (event?_eq_none_iff.1 hnone) (lookup?_eq_none_iff.1 hlookup) (isBad_ofRejection x)
  · intro metrics hmetrics
    refine ⟨some (.rejected "invalid_request"), ?_, ?_, fun hhead => ?_⟩
    · unfold Counts
      rw [hnone]
      exact .inr ⟨_, rfl⟩
    · simp [observe, hmetrics, Metrics.recordAny]
    · rw [Response.under_of_ne hhead]
      exact .rejected "invalid_request" (kind?_ofRejection v.request (.invalid x))

/-- A call of the engine is answered by what the engine makes of it. -/
theorem serve_spec_of_calls [Store σ] [LawfulStore σ] (hopen : g.IsOpen) (now : Timestamp)
    {call : Call} {event : Session.Event} (hroute : Route.ofPath? v.request.path = some route)
    (hadmits : route.admits v.request.method = true) (hevent : v.event? = some event)
    (hcall : Call.ofRequest v.request route = .ok call) (hcalls : Calls v.moment call event) :
    Serves ⟨e, s, now⟩ g v (g.serve e s v.moment v.request) := by
  have hdone : Performs ⟨e, s, v.moment.now⟩ event g v.moment (g.perform e s v.moment call) :=
    perform_of_calls hopen hcalls
  have hrun : (⟨e, s, now⟩ : Session σ).run v.events =
      (⟨e, s, v.moment.now⟩ : Session σ).step event := by
    rw [events, hevent]
    rfl
  rw [serve_of_ok hroute hadmits hcall]
  refine ⟨?_, ?_, isOpen_told hdone.isOpen, IsTold.isAnswered ?_ hroute hadmits, ?_⟩
  · rw [hrun]
    exact hdone.engine_eq
  · rw [hrun]
    exact hdone.store_eq
  · exact .call (event?_eq_some_iff.1 hevent) hdone.answers
  · intro metrics hmetrics
    unfold Counts
    rw [hevent]
    show ∃ news, (match ((⟨e, s, v.moment.now⟩ : Session σ).respond event).1 with
      | .ok reply => news = news? v.moment.duration reply
      | .error x => news = some (.rejected x.kind)) ∧ _
    cases hanswer : ((⟨e, s, v.moment.now⟩ : Session σ).respond event).1 with
    | error x =>
      obtain ⟨hresult, hsame⟩ := hdone.refused x hanswer
      refine ⟨some (.rejected x.kind), rfl, ?_, fun hhead => ?_⟩
      · simp [hresult, told, observe, hsame, hmetrics, Metrics.recordAny, Rejection.kind]
      · rw [Response.under_of_ne hhead, hresult]
        exact .rejected x.kind (kind?_ofRejection v.request (.refused x))
    | ok reply =>
      obtain ⟨⟨d, hresult, hshows⟩, news, hnews, hrouteOf, hcounted⟩ := hdone.accepted reply hanswer
      obtain ⟨hpost, route', hroute', hevent'⟩ := route_of_event? hevent
      refine ⟨some news, hnews.symm, ?_, fun hhead => ?_⟩
      · simp [hresult, told, hcounted, hmetrics, Metrics.recordAny]
      · rw [Response.under_of_ne hhead, hresult]
        exact isCounted_of_accepted hpost hroute' hevent' hshows hnews hrouteOf

/-- What is looked up is told, and nothing changes. -/
theorem serve_spec_of_isQuery [Store σ] [LawfulStore σ] (hopen : g.IsOpen) (now : Timestamp)
    {call : Call} (hroute : Route.ofPath? v.request.path = some route)
    (hadmits : route.admits v.request.method = true) (hpost : v.request.method ≠ .post)
    (hnone : v.event? = none) (hcall : Call.ofRequest v.request route = .ok call)
    (hquery : call.IsQuery)
    (htold : v.IsTold ⟨e, s, now⟩ (.ofResult (g.perform e s v.moment call).result)) :
    Serves ⟨e, s, now⟩ g v (g.serve e s v.moment v.request) := by
  have hrun : (⟨e, s, now⟩ : Session σ).run v.events = ⟨e, s, now⟩ := by simp [events, hnone]
  obtain ⟨hengine, hstore⟩ := g.perform_eq_of_isQuery e s v.moment hquery
  obtain ⟨hopen', hsame⟩ :=
    perform_gateway_of_isQuery (e := e) (s := s) (m := v.moment) hopen hquery
  rw [serve_of_ok hroute hadmits hcall]
  refine ⟨by rw [hrun, hengine], by rw [hrun, hstore], isOpen_told hopen',
    IsTold.isAnswered htold hroute hadmits, ?_⟩
  intro metrics hmetrics
  refine ⟨rejectionOf? (g.perform e s v.moment call).result, ?_, ?_, fun hhead => ?_⟩
  · unfold Counts
    rw [hnone]
    cases (g.perform e s v.moment call).result with
    | ok body => exact .inl rfl
    | error x => exact .inr ⟨_, rfl⟩
  · cases (g.perform e s v.moment call).result with
    | ok body => simp [told, rejectionOf?, hsame, hmetrics, Metrics.recordAny]
    | error x => simp [told, rejectionOf?, observe, hsame, hmetrics, Metrics.recordAny]
  · rw [Response.under_of_ne hhead]
    exact isCounted_of_isRead hpost _

/-- Who asks for a change is answered by what the engine makes of the call. -/
theorem serve_spec_of_isWrite [Store σ] [LawfulStore σ] (hopen : g.IsOpen) (now : Timestamp)
    (hroute : Route.ofPath? v.request.path = some route)
    (hpost : v.request.method = .post) (hwrite : route.isWrite = true) :
    Serves ⟨e, s, now⟩ g v (g.serve e s v.moment v.request) := by
  have hadmits : route.admits v.request.method = true := Route.admits_iff.2 (.inl ⟨hwrite, hpost⟩)
  have hread := ofRequest_of_isWrite hroute hpost hwrite
  generalize hcall : Call.ofRequest v.request route = result at hread
  generalize hevent : v.event? = event? at hread
  cases hread with
  | bad x => exact serve_spec_of_error hopen now hroute hadmits hevent (lookup?_eq_none hpost) hcall
  | call call event hcalls => exact serve_spec_of_calls hopen now hroute hadmits hevent hcall hcalls

/-- Who looks something up is told, and changes nothing. -/
theorem serve_spec_of_isRead [Store σ] [LawfulStore σ] (hopen : g.IsOpen) (now : Timestamp)
    (hroute : Route.ofPath? v.request.path = some route)
    (hget : v.request.method = .get ∨ v.request.method = .head) (hread : route.isWrite = false) :
    Serves ⟨e, s, now⟩ g v (g.serve e s v.moment v.request) := by
  have hadmits : route.admits v.request.method = true := Route.admits_iff.2 (.inr ⟨hread, hget⟩)
  have hnone : v.event? = none := event?_eq_none hroute (by simp [hread])
  have hpost : v.request.method ≠ .post := by
    rintro hpost
    rw [hpost] at hget
    simp at hget
  by_cases hhealth : route = .health
  · subst hhealth
    exact serve_spec_of_isQuery hopen now hroute hadmits hpost hnone rfl trivial
      (.state (.inl ⟨hget, Route.ofPath?_eq_some_iff.1 hroute⟩))
  · by_cases hmetrics : route = .metrics
    · subst hmetrics
      exact serve_spec_of_isQuery hopen now hroute hadmits hpost hnone rfl trivial
        (.state (.inr ⟨hget, Route.ofPath?_eq_some_iff.1 hroute⟩))
    · have hspec := ofRequest_of_isRead hroute hget hread hhealth hmetrics
      generalize hcall : Call.ofRequest v.request route = result at hspec
      generalize hlookup : v.lookup? = lookup? at hspec
      cases hspec with
      | bad x => exact serve_spec_of_error hopen now hroute hadmits hnone hlookup hcall
      | call l =>
        exact serve_spec_of_isQuery hopen now hroute hadmits hpost hnone hcall l.isQuery_call
          (.lookup (lookup?_eq_some_iff.1 hlookup) (l.answers_perform hopen))

/-- Where no route leads, and where the method is not one of the route, nothing happens. -/
theorem serve_spec_of_status [Store σ] [LawfulStore σ] (hopen : g.IsOpen) (now : Timestamp)
    {status : Nat} (hnone : v.event? = none) (hstatus : status ≠ 200)
    (hserve : g.serve e s v.moment v.request = ⟨⟨status, .empty⟩, g, e, s⟩)
    (hanswered : v.IsAnswered (⟨e, s, now⟩ : Session σ) ⟨status, .empty⟩) :
    Serves ⟨e, s, now⟩ g v (g.serve e s v.moment v.request) := by
  have hrun : (⟨e, s, now⟩ : Session σ).run v.events = ⟨e, s, now⟩ := by simp [events, hnone]
  rw [hserve]
  refine ⟨by rw [hrun], by rw [hrun], hopen, hanswered, fun metrics hmetrics => ?_⟩
  refine ⟨none, ?_, hmetrics, fun _ => .nothing (fun route h => hstatus h.2.2) (if_neg hstatus)⟩
  unfold Counts
  rw [hnone]
  exact .inl rfl

/-- **Answering a request does what its call does, and tells the result.** -/
theorem serve_spec [Store σ] [LawfulStore σ] (hopen : g.IsOpen) (v : Visit) (now : Timestamp) :
    Serves ⟨e, s, now⟩ g v (g.serve e s v.moment v.request) := by
  cases hroute : Route.ofPath? v.request.path with
  | none =>
    refine serve_spec_of_status hopen now (by simp [event?, hroute]) (by decide : 404 ≠ 200) ?_ ?_
    · simp only [serve, hroute]
    · refine .nowhere (fun route h => ?_) rfl
      rw [h.ofPath?_eq] at hroute
      cases hroute
  | some route =>
    by_cases hadmits : route.admits v.request.method = true
    · rcases Route.admits_iff.1 hadmits with ⟨hwrite, hpost⟩ | ⟨hread, hget⟩
      · exact serve_spec_of_isWrite hopen now hroute hpost hwrite
      · exact serve_spec_of_isRead hopen now hroute hget hread
    · have hnone : v.event? = none :=
        event?_eq_none hroute fun h => hadmits (Route.admits_iff.2 (.inl h))
      refine serve_spec_of_status hopen now hnone (by decide : 405 ≠ 200) ?_ ?_
      · simp only [serve, hroute, if_neg hadmits]
      · exact .misused (Route.ofPath?_eq_some_iff.1 hroute)
          (fun h => hadmits (Route.admits_iff_takes.2 h)) rfl

end Visit

end Gateway

end DelegatedVoting
