import DelegatedVoting.Node
import DelegatedVoting.Proofs.Files
import DelegatedVoting.Proofs.Runs
import DelegatedVoting.Proofs.Serving
import DelegatedVoting.Proofs.Tables

/-!
# Lives of a node

A node is made from what is in its data folder, is started and stopped, answers requests, and leaves
its tables for the next one. Through all of this memory and tables agree.

* `Gateway.Request.whole`, `Gateway.serve_whole`: who asks for the head of a response gets the head
  of the whole response;
* `Gateway.Visit.IsRecorded`: what is counted of a request and its whole response;
* `Node.MadeFrom`, `Node.Makes`, `Node.new_spec`: what is there after a node has been made, or could
  not be;
* `Node.Turn`, `Node.after`, `Node.run`: what can happen to a node;
* `Node.events`, `Node.log`: what happens to its engine meanwhile, and what is answered;
* `Node.Takes`, `Node.after_spec`: what one turn does;
* `Node.run_session`: turns do to the engine and the tables what the events do;
* `Node.LeftBy`, `Node.LeftBy.isSound`: memory and tables of a node agree if its data folder was
  empty or had been left by nodes.
-/

namespace DelegatedVoting

open Gateway

/-! ### Whole responses -/

namespace Gateway

/-- The request for the whole response, where only its head is asked for. -/
def Request.whole (r : Request) : Request :=
  if r.method = .head then { r with method := .get } else r

/-- The visit of the request for the whole response. -/
def Visit.whole (v : Visit) : Visit := { v with request := v.request.whole }

theorem Request.whole_of_head {r : Request} (h : r.method = .head) :
    r.whole = { r with method := .get } := if_pos h

theorem Request.whole_of_ne {r : Request} (h : r.method ≠ .head) : r.whole = r := if_neg h

theorem Request.method_whole_ne (r : Request) : r.whole.method ≠ .head := by
  by_cases h : r.method = .head
  · rw [whole_of_head h]
    exact nofun
  · rwa [whole_of_ne h]

/-- Who asks for the head of a response gets the head of the whole response. -/
theorem serve_whole {σ : Type} [Store σ] (g : Gateway) (e : Engine) (s : σ) (m : Moment)
    (r : Request) : g.serve e s m r =
      { g.serve e s m r.whole with
        response := (g.serve e s m r.whole).response.under r.method } := by
  by_cases h : r.method = .head
  · rw [Request.whole_of_head h]
    have hpath : ({ r with method := .get } : Request).path = r.path := rfl
    have henter (route : Route) :
        g.enter e s m { r with method := .get } route = g.enter e s m r route := by
      cases route <;> rfl
    have hadmits (route : Route) : route.admits .get = route.admits .head := by
      unfold Route.admits
      cases route.isWrite <;> rfl
    unfold serve
    rw [hpath]
    cases Route.ofPath? r.path with
    | none => simp [h, Response.under]
    | some route =>
      simp only [henter, hadmits, h, Response.under]
      split <;> rfl
  · rw [Request.whole_of_ne h, Response.under_of_ne h]

theorem Visit.event?_whole (v : Visit) : v.whole.event? = v.event? := by
  by_cases h : v.request.method = .head
  · have hnone : v.event? = none := by simp [event?, h]
    rw [hnone, whole, Request.whole_of_head h]
    rfl
  · rw [whole, Request.whole_of_ne h]

theorem Visit.events_whole (v : Visit) : v.whole.events = v.events := by
  rw [events, events, v.event?_whole]
  rfl

theorem Visit.counts_whole {σ : Type} [Store σ] [LawfulStore σ] {v : Visit} {before : Session σ}
    {news : Option Event} : v.whole.Counts before news ↔ v.Counts before news := by
  unfold Counts
  rw [v.event?_whole]
  rfl

/-- No change is asked for where only a head is asked for. -/
theorem Exchange.isAccepted_whole {r : Request} {response : Response} {route : Route} :
    IsAccepted ⟨r.whole, response⟩ route ↔ IsAccepted ⟨r, response⟩ route := by
  by_cases h : r.method = .head
  · rw [Request.whole_of_head h]
    exact iff_of_false (fun haccepted => nomatch haccepted.1)
      fun haccepted => nomatch h.symm.trans haccepted.1
  · rw [Request.whole_of_ne h]

theorem Exchange.IsCounted.of_whole {r : Request} {response : Response} {news : Option Event}
    (h : IsCounted ⟨r.whole, response⟩ news) : IsCounted ⟨r, response⟩ news := by
  cases h with
  | created h => exact .created (isAccepted_whole.1 h)
  | voted h => exact .voted (isAccepted_whole.1 h)
  | delegated h => exact .delegated (isAccepted_whole.1 h)
  | finalized h o duration ho => exact .finalized (isAccepted_whole.1 h) o duration ho
  | rejected kind h => exact .rejected kind h
  | nothing h hkind =>
    exact .nothing (fun route haccepted => h route (isAccepted_whole.2 haccepted)) hkind

/-- What is counted of a request and its whole response, where anything is counted. -/
def Visit.IsRecorded {σ : Type} [Store σ] [LawfulStore σ] (v : Visit) (before : Session σ)
    (full : Response) (metrics metrics' : Option Metrics) : Prop :=
  ∀ m, metrics = some m → ∃ news, v.Counts before news ∧ metrics' = some (m.recordAny news) ∧
    Exchange.IsCounted ⟨v.request, full⟩ news

theorem Serves.isRecorded {σ : Type} [Store σ] [LawfulStore σ] {before : Session σ} {g : Gateway}
    {v : Visit} {done : Served σ} (h : Serves before g v.whole done) :
    v.IsRecorded before done.response g.metrics done.gateway.metrics := by
  intro m hm
  obtain ⟨news, hcounts, hrecorded, hcounted⟩ := h.counts m hm
  exact ⟨news, Visit.counts_whole.1 hcounts, hrecorded,
    (hcounted v.request.method_whole_ne).of_whole⟩

end Gateway

/-! ### Tables that have been left -/

/-- Memory and tables agree for some engine, and the names in use are among those that have been
generated. -/
def Tables.IsSound (used : List ProposalId) (ts : Tables) : Prop :=
  ∃ (e : Engine) (c : Contents), Session.Sound used (⟨e, ts, 0⟩ : Session Tables) c

namespace Tables

variable {used : List ProposalId} {ts ts' : Tables} {c : Contents} {e : Engine} {rules : Rules}

theorem isSound_empty : IsSound [] empty :=
  ⟨.new {}, .empty, Session.sound_start (keeps_empty ∅) {} 0⟩

/-- What is done to the tables when they are opened is done to the notes. -/
theorem eq_of_opened (h : ts.opened = .ok ts') : ∃ notes, ts' = { ts with notes } := by
  obtain ⟨version, -, h⟩ := bind_eq_ok_iff.1 h
  split at h
  · exact ⟨ts.notes, (Except.ok.inj h).symm⟩
  · split at h
    · cases h
    · have hset : ts.setSchemaVersion currentVersion = .ok ts' := mapError_eq_ok_iff.1 h
      unfold setSchemaVersion putNote asStore at hset
      obtain ⟨notes, -, hnotes⟩ := bind_eq_ok_iff.1 (mapError_eq_ok_iff.1 hset)
      exact ⟨notes, (Except.ok.inj hnotes).symm⟩

theorem IsSound.opened (h : ts.IsSound used) (hopened : ts.opened = .ok ts') :
    ts'.IsSound used := by
  obtain ⟨e, c, hsound⟩ := h
  obtain ⟨notes, rfl⟩ := eq_of_opened hopened
  have hkeeps : ts.Keeps c := hsound.keeps
  exact ⟨e, c, ⟨hkeeps.proposals, hkeeps.ballots, hkeeps.tallies⟩, hsound.mirrored, hsound.mem_used⟩

/-- The engine that is recovered agrees with the tables. -/
theorem IsSound.recover (h : ts.IsSound used) (hrecover : Engine.recover rules ts = .ok e)
    (now : Timestamp) : ∃ c, Session.Sound used (⟨e, ts, now⟩ : Session Tables) c := by
  obtain ⟨before, c, hsound⟩ := h
  obtain ⟨-, rfl⟩ := (hsound.mirrored.recover_eq_ok_iff hsound.keeps).1 hrecover
  refine ⟨c, hsound.keeps, hsound.mirrored.restored, fun {p slot} hslot => ?_⟩
  exact hsound.mem_used (hsound.mirrored.slots_restored ▸ hslot)

end Tables

namespace Node

open DataFolder

variable {c : Config} {fs fs' : Files} {n n' : Node} {used : List ProposalId} {now : Timestamp}

/-! ### Making a node -/

/-- The node has been made of what stood in its data folder. -/
structure MadeFrom (n : Node) (c : Config) (fs : Files) : Prop where
  isFile : IsFile n.file
  store_eq : openedAt n.file fs = .ok n.store
  engine_eq : Engine.recover c.rules n.store = .ok n.engine
  metrics_eq : n.metrics = metricsOf c.enableMetrics n.engine
  listening_eq : n.listening = none

/-- What is there after a node has been made, or could not be. -/
inductive Makes (c : Config) (fs : Files) : Except NodeError Node × Files → Prop
  | failed (e : NodeError) (fs' : Files) (htables : ∀ place, IsFile place →
      fs'.tables? place = fs.tables? place ∨
        ∃ t, openedAt place fs = .ok t ∧ fs'.tables? place = some t) :
    Makes c fs (.error e, fs')
  | made (n : Node) (fs' : Files) (h : n.MadeFrom c fs) : Makes c fs (.ok n, fs')

theorem new_spec (c : Config) (fs : Files) : Makes c fs (Node.new c fs) := by
  unfold Node.new
  split
  · exact .failed _ _ fun _ _ => .inl rfl
  · have hspec := openTables_spec c.dataDir c.mapSize.toNat fs
    generalize openTables c.dataDir c.mapSize.toNat fs = result at hspec ⊢
    cases hspec with
    | failed e fs' htables => exact .failed _ _ fun place hplace => .inl (htables place hplace)
    | opened file t fs' hfile hopened htables =>
      dsimp only
      cases hmade : ofTables c file t with
      | error e =>
        refine .failed _ _ fun place hplace => ?_
        rw [htables place hplace]
        split
        · rename_i heq
          exact .inr ⟨t, heq ▸ hopened, rfl⟩
        · exact .inl rfl
      | ok n =>
        unfold ofTables at hmade
        dsimp only at hmade
        split at hmade
        · cases hmade
        · obtain ⟨engine, hengine, hmade⟩ := bind_eq_ok_iff.1 hmade
          cases hmade
          exact .made _ _ ⟨hfile, hopened, mapError_eq_ok_iff.1 hengine, rfl, rfl⟩

theorem madeFrom_of_new (h : Node.new c fs = (.ok n, fs')) : n.MadeFrom c fs := by
  have hspec := new_spec c fs
  rw [h] at hspec
  cases hspec with
  | made _ _ hmade => exact hmade

/-- Memory and tables of a node that has been made agree, if the tables were in order. -/
theorem MadeFrom.sound (h : n.MadeFrom c fs)
    (hsound : ((fs.tables? n.file).getD .empty).IsSound used) (now : Timestamp) :
    ∃ kept, Session.Sound used (⟨n.engine, n.store, now⟩ : Session Tables) kept :=
  (hsound.opened h.store_eq).recover h.engine_eq now

/-! ### What can happen to a node -/

/-- What can happen to a node. -/
inductive Turn
  | start
  | stop
  | request (v : Visit)

/-- The node after a turn. If it cannot be started, or if the request does not come there, it
remains as it is. -/
def after (n : Node) : Turn → Node
  | .start =>
    match n.start with
    | .ok n => n
    | .error _ => n
  | .stop => n.stop
  | .request v =>
    match n.serve v.moment v.request with
    | some (_, n) => n
    | none => n

/-- What happens to the engine of a node in a turn. -/
def eventsOf (n : Node) : Turn → List Session.Event
  | .request v =>
    match n.serve v.moment v.request with
    | some _ => v.events
    | none => []
  | _ => []

/-- What is answered in a turn. The response is the whole one, of which a client may have asked for
the head only. -/
def exchangesOf (n : Node) : Turn → List Exchange
  | .request v =>
    match n.serve v.moment v.request.whole with
    | some (response, _) => [⟨v.request, response⟩]
    | none => []
  | _ => []

/-- The node after turns. -/
def run (n : Node) (turns : List Turn) : Node := turns.foldl after n

/-- What happens to the engine of a node in its turns. -/
def events : Node → List Turn → List Session.Event
  | _, [] => []
  | n, turn :: turns => n.eventsOf turn ++ events (n.after turn) turns

/-- What a node answers in its turns. -/
def log : Node → List Turn → List Exchange
  | _, [] => []
  | n, turn :: turns => n.exchangesOf turn ++ log (n.after turn) turns

/-- The engine of a node over its tables. -/
def session (n : Node) (now : Timestamp) : Session Tables := ⟨n.engine, n.store, now⟩

@[simp] theorem run_nil (n : Node) : n.run [] = n := rfl

@[simp] theorem run_cons (n : Node) (turn : Turn) (turns : List Turn) :
    n.run (turn :: turns) = (n.after turn).run turns := rfl

/-- Calls of the engine are admitted where requests are awaited. -/
def IsOpen (n : Node) : Prop :=
  ∀ host executor, n.listening = some (host, executor) → executor.isClosed = false

/-- What a turn does: a request is answered, and what else there is concerns neither the engine nor
the tables. -/
inductive Takes (n : Node) (now : Timestamp) :
    Turn → Node → List Session.Event → List Exchange → Prop
  | idle (turn : Turn) (n' : Node) (hfile : n'.file = n.file) (hengine : n'.engine = n.engine)
      (hstore : n'.store = n.store) (hmetrics : n'.metrics = n.metrics) (hopen : n'.IsOpen) :
    Takes n now turn n' [] []
  | heard (v : Visit) (full : Response) (n' : Node) (hfile : n'.file = n.file)
      (hengine : n'.engine = ((n.session now).run v.events).engine)
      (hstore : n'.store = ((n.session now).run v.events).store) (hopen : n'.IsOpen)
      (hrecorded : v.IsRecorded (n.session now) full n.metrics n'.metrics) :
    Takes n now (.request v) n' v.events [⟨v.request, full⟩]

theorem isOpen_of_none (h : n.listening = none) : n.IsOpen := fun host executor hsome => by
  rw [h] at hsome
  cases hsome

/-- A node that has been started awaits requests, or is not to await any. -/
theorem start_spec (h : n.start = .ok n') (hopen : n.IsOpen) :
    ∃ listening, n' = { n with listening } ∧ n'.IsOpen := by
  unfold start at h
  split at h
  · split at h
    · cases h
    · rename_i executor hexecutor
      obtain ⟨address, -, h⟩ := bind_eq_ok_iff.1 h
      obtain ⟨-, -, h⟩ := bind_eq_ok_iff.1 h
      dsimp only at h
      split at h
      · cases h
      · cases h
        refine ⟨_, rfl, fun host executor' hsome => ?_⟩
        obtain ⟨-, rfl⟩ := Prod.ext_iff.1 (Option.some.inj hsome)
        unfold Executor.ofLimit? at hexecutor
        split at hexecutor
        · cases hexecutor
          rfl
        · cases hexecutor
  · cases h
    exact ⟨_, rfl, hopen⟩

/-- Who asks for the head of a response leaves the node as who asks for the whole response. -/
theorem serve_whole (n : Node) (m : Moment) (r : Request) : n.serve m r =
    (n.serve m r.whole).map fun done => (done.1.under r.method, done.2) := by
  unfold serve
  split
  · split
    · rfl
    · rename_i host executor _ _
      rw [Gateway.serve_whole]
      rfl
  · rfl

/-- What a request does that comes to a node. -/
theorem takes_of_serve {v : Visit} {full : Response} (hopen : n.IsOpen) (now : Timestamp)
    (h : n.serve v.moment v.request.whole = some (full, n')) :
    n.Takes now (.request v) n' v.events [⟨v.request, full⟩] := by
  unfold serve at h
  split at h
  · rename_i host executor hlistening
    split at h
    · cases h
    · have hadmits : Gateway.IsOpen ⟨executor, n.metrics⟩ := hopen host executor hlistening
      have hserves : Serves (n.session now) ⟨executor, n.metrics⟩ v.whole
          (Gateway.serve ⟨executor, n.metrics⟩ n.engine n.store v.moment v.request.whole) :=
        v.whole.serve_spec hadmits now
      have hengine := hserves.engine_eq
      have hstore := hserves.store_eq
      rw [v.events_whole] at hengine hstore
      cases h
      refine .heard v _ _ rfl hengine hstore (fun host' executor' hsome => ?_) hserves.isRecorded
      obtain ⟨-, rfl⟩ := Prod.ext_iff.1 (Option.some.inj hsome)
      exact hserves.isOpen
  · cases h

/-- **What a turn does.** -/
theorem after_spec (hopen : n.IsOpen) (now : Timestamp) (turn : Turn) :
    n.Takes now turn (n.after turn) (n.eventsOf turn) (n.exchangesOf turn) := by
  cases turn with
  | start =>
    show n.Takes now .start (match n.start with
      | .ok n => n
      | .error _ => n) [] []
    cases hstart : n.start with
    | error => exact .idle _ _ rfl rfl rfl rfl hopen
    | ok n' =>
      obtain ⟨listening, rfl, hopen'⟩ := start_spec hstart hopen
      exact .idle _ _ rfl rfl rfl rfl hopen'
  | stop => exact .idle _ _ rfl rfl rfl rfl (isOpen_of_none rfl)
  | request v =>
    have hwhole := n.serve_whole v.moment v.request
    simp only [after, eventsOf, exchangesOf, hwhole]
    cases hserve : n.serve v.moment v.request.whole with
    | none => exact .idle _ _ rfl rfl rfl rfl hopen
    | some done => exact takes_of_serve hopen now hserve

theorem Takes.isOpen {turn : Turn} {events : List Session.Event} {exchanges : List Exchange}
    (h : n.Takes now turn n' events exchanges) : n'.IsOpen := by
  cases h <;> assumption

theorem Takes.file_eq {turn : Turn} {events : List Session.Event} {exchanges : List Exchange}
    (h : n.Takes now turn n' events exchanges) : n'.file = n.file := by
  cases h <;> assumption

/-- A turn does to the engine and the tables what the events do. -/
theorem Takes.session_eq {turn : Turn} {events : List Session.Event} {exchanges : List Exchange}
    (h : n.Takes now turn n' events exchanges) :
    (n.session now).run events = n'.session ((n.session now).run events).now := by
  cases h with
  | idle _ _ _ hengine hstore =>
    rw [session, session, hengine, hstore]
    rfl
  | heard v full _ _ hengine hstore =>
    show _ = Session.mk n'.engine n'.store _
    rw [hengine, hstore]

/-- **Turns do to the engine and the tables what the events do.** -/
theorem run_session (hopen : n.IsOpen) (turns : List Turn) (now : Timestamp) :
    (n.run turns).file = n.file ∧
      ∃ now', (n.session now).run (n.events turns) = (n.run turns).session now' := by
  induction turns generalizing n now with
  | nil => exact ⟨rfl, now, rfl⟩
  | cons turn turns ih =>
    have htakes := after_spec hopen now turn
    obtain ⟨hfile, now', hrun⟩ := ih htakes.isOpen ((n.session now).run (n.eventsOf turn)).now
    refine ⟨hfile.trans htakes.file_eq, now', ?_⟩
    rw [events, Session.run_append, htakes.session_eq]
    exact hrun

/-! ### What nodes leave -/

/-- What is in a data folder: nothing, or what nodes have left there one after the other. The names
are those that have been generated. -/
inductive LeftBy (file : List String) : List ProposalId → Files → Prop
  | empty (fs : Files) (h : fs.tables? file = none) : LeftBy file [] fs
  /-- A node has been made, and its tables have been left after turns in which no counter was
  exhausted and no name was generated again. -/
  | life (used : List ProposalId) (c : Config) (fs fs' : Files) (n : Node) (turns : List Turn)
      (h : LeftBy file used fs) (hnew : Node.new c fs = (.ok n, fs')) (hfile : n.file = file)
      (horderly : (n.session 0).Orderly used (n.events turns)) :
    LeftBy file (used ++ (n.session 0).generated (n.events turns)) ((n.run turns).save fs')
  /-- Something has been done elsewhere. -/
  | elsewhere (used : List ProposalId) (fs fs' : Files) (h : LeftBy file used fs)
      (hsame : fs'.tables? file = fs.tables? file) : LeftBy file used fs'
  /-- A node could not be made. -/
  | failed (used : List ProposalId) (c : Config) (fs fs' : Files) (e : NodeError)
      (h : LeftBy file used fs) (hnew : Node.new c fs = (.error e, fs')) : LeftBy file used fs'

theorem LeftBy.isSound {file : List String} (h : LeftBy file used fs) (hfile : IsFile file) :
    ((fs.tables? file).getD .empty).IsSound used := by
  induction h with
  | empty fs h =>
    rw [h]
    exact Tables.isSound_empty
  | life used c fs fs' n turns _ hnew hn horderly ih =>
    subst hn
    have hmade := madeFrom_of_new hnew
    obtain ⟨before, hsound⟩ := hmade.sound ih 0
    obtain ⟨after, hsound⟩ := Session.Sound.sound_run hsound horderly
    obtain ⟨hsame, now, hrun⟩ := run_session (isOpen_of_none hmade.listening_eq) turns 0
    change Session.Sound _ ((n.session 0).run (n.events turns)) after at hsound
    rw [hrun] at hsound
    rw [save, hsame, Files.tables?_put, if_pos rfl, if_neg hfile.not_isStart]
    exact ⟨_, after, hsound.keeps, hsound.mirrored, hsound.mem_used⟩
  | elsewhere used fs fs' _ hsame ih => rwa [hsame]
  | failed used c fs fs' e _ hnew ih =>
    have hspec := new_spec c fs
    rw [hnew] at hspec
    cases hspec with
    | failed e fs' htables =>
      rcases htables file hfile with hsame | ⟨t, hopened, ht⟩
      · rwa [hsame]
      · rw [ht]
        exact ih.opened hopened

end Node

end DelegatedVoting
