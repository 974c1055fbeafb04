import DelegatedVoting.Proofs.Front
import DelegatedVoting.Proofs.Lives
import DelegatedVoting.Proofs.OpenCount

/-!
# The metrics of a node are its accounts

The metrics are kept up to date event by event, while the number of open proposals is found in the
registry and what has been answered is in the log. They never drift apart, whatever requests come,
whatever the store refuses, and whatever earlier nodes have left in the data folder.

* `Metrics.Shows`: the gauge of the open proposals shows a number;
* `Gateway.Visit.shows_recordAny`: what is counted of a request moves the gauge as the request moves
  the number of open proposals;
* `Metrics.Accounts`: the metrics agree with the engine and with what has been answered;
* `Metrics.Accounts.append`: what is counted of a request keeps the accounts;
* `Front.accounts_run`, `Node.accounts_run`: so do the requests to a gateway in front of any store,
  and the turns of a node;
* `Node.metrics_are_accounts`: the accounts of a node that has been made from a data folder, and of
  a gateway in front of any store.
-/

namespace DelegatedVoting

open Gateway

/-- The gauge of the open proposals shows a number, as a signed number of 64 bits. -/
def Metrics.Shows (m : Metrics) (count : Nat) : Prop := m.openProposals = Int64.ofNat count

/-! ### The gauge -/

namespace Gateway.Visit

open Session

variable {σ : Type} [Store σ] [LawfulStore σ] {before : Session σ} {v : Visit} {m : Metrics}
  {news : Option DelegatedVoting.Event} {used : List ProposalId} {c : Contents}

/-- What is counted of a reply moves the gauge as the reply tells. -/
theorem shows_of_news {reply : Reply} {count count' : Nat}
    {duration : Microseconds} (hshows : m.Shows count) (hshifts : Shifts (.ok reply) count count') :
    (m.recordAny (news? duration reply)).Shows count' := by
  unfold Metrics.Shows at hshows ⊢
  cases reply with
  | proposal q =>
    obtain rfl : count' = count + 1 := hshifts
    rw [Int64.ofNat_add, ← hshows]
    rfl
  | action a =>
    obtain rfl : count' = count := hshifts
    cases a <;> exact hshows
  | tally t =>
    obtain rfl : count' + 1 = count := hshifts
    rw [Int64.ofNat_add] at hshows
    show m.openProposals - 1 = _
    rw [hshows]
    exact Int64.add_sub_cancel _ _
  | done =>
    obtain rfl : count' = count := hshifts
    exact hshows

/-- **What is counted of a request moves the gauge as the request moves the number of open
proposals.** -/
theorem shows_recordAny (h : Sound used before c) (horderly : Orderly used before v.events)
    (hcounts : v.Counts before news) (hshows : m.Shows before.engine.openCount) :
    (m.recordAny news).Shows (before.run v.events).engine.openCount := by
  unfold Counts at hcounts
  cases hevent : v.event? with
  | none =>
    rw [hevent] at hcounts
    have hrun : before.run v.events = before := by simp [events, hevent]
    rw [hrun]
    rcases hcounts with rfl | ⟨kind, rfl⟩ <;> exact hshows
  | some event =>
    rw [hevent] at hcounts
    dsimp only at hcounts
    have hevents : v.events = [.clock v.moment.now, event] := by simp [events, hevent]
    rw [hevents] at horderly ⊢
    -- the clock is set first, which opens and closes nothing
    obtain ⟨hfits, hroom, hfresh⟩ := horderly.head
    obtain ⟨c', hclock, -⟩ := h.step hfits hroom hfresh
    obtain ⟨hfits, hroom, hfresh⟩ := horderly.tail.head
    have hcommit (p : ProposalId) (t : Tally) : event ≠ .commit p t := by
      rintro rfl
      obtain ⟨-, route, -, hroute⟩ := route_of_event? hevent
      cases hroute
    have hshifts := hclock.openCount_step hfits hroom hfresh hcommit
    show (m.recordAny news).Shows
      ((before.step (.clock v.moment.now)).step event).engine.openCount
    generalize ((before.step (.clock v.moment.now)).respond event).1 = outcome at hcounts hshifts
    cases outcome with
    | error x =>
      subst hcounts
      replace hshifts : _ = before.engine.openCount := hshifts
      rw [hshifts]
      exact hshows
    | ok reply =>
      subst hcounts
      exact shows_of_news hshows hshifts

end Gateway.Visit

/-! ### Accounts -/

namespace Metrics

/-- The metrics agree with the engine, and with what has been answered. -/
structure Accounts (m : Metrics) (e : Engine) (log : List Exchange) : Prop where
  shows : m.Shows e.openCount
  tallies : m.Tallies log

theorem Shows.toInt_eq {m : Metrics} {count : Nat} (h : m.Shows count) (hlt : count < 2 ^ 63) :
    m.openProposals.toInt = count := by
  rw [show m.openProposals = _ from h]
  exact Int64.toInt_ofNat_of_lt hlt

/-- The accounts of an engine before anything has been answered. -/
theorem exists_accounts_nil {metrics : Option Metrics} {e : Engine}
    (h : metrics = metricsOf true e) : ∃ m, metrics = some m ∧ m.Accounts e [] := by
  refine ⟨_, h, ?_, tallies_nil _ rfl rfl rfl rfl rfl rfl⟩
  show (UInt64.ofNat e.openCount).toInt64 = _
  exact UInt64.toInt64_ofNat'

/-- **What is counted of a request keeps the accounts.** -/
theorem Accounts.append {σ : Type} [Store σ] [LawfulStore σ] {before : Session σ} {v : Visit}
    {full : Response} {metrics metrics' : Option Metrics} {m : Metrics} {log : List Exchange}
    {used : List ProposalId} {c : Contents} (h : m.Accounts before.engine log)
    (hm : metrics = some m) (hrecorded : v.IsRecorded before full metrics metrics')
    (hsound : before.Sound used c) (horderly : before.Orderly used v.events) :
    ∃ m', metrics' = some m' ∧
      m'.Accounts (before.run v.events).engine (log ++ [⟨v.request, full⟩]) := by
  obtain ⟨news, hnews, hmetrics, hcounted⟩ := hrecorded m hm
  exact ⟨m.recordAny news, hmetrics, Visit.shows_recordAny hsound horderly hnews h.shows,
    h.tallies.append hcounted⟩

end Metrics

/-! ### A gateway in front of any store -/

namespace Front

variable {σ : Type} [Store σ] [LawfulStore σ] {f : Front σ} {used : List ProposalId}
  {now : Timestamp} {c : Contents} {m : Metrics} {earlier : List Exchange}

/-- What is answered to requests, with the whole responses. -/
def log : Front σ → List Visit → List Exchange
  | _, [] => []
  | f, v :: visits => ⟨v.request, (f.serve v.whole).response⟩ :: log (f.after v) visits

omit [LawfulStore σ] in
/-- Who asks for the head of a response leaves the gateway as who asks for the whole response. -/
theorem gateway_after (f : Front σ) (v : Visit) :
    (f.after v).gateway = (f.serve v.whole).gateway := by
  rw [after, serve, Gateway.serve_whole]
  rfl

/-- **Requests keep the accounts** in front of any store, whatever it refuses. -/
theorem accounts_run (hopen : f.gateway.IsOpen) (hsound : (f.session now).Sound used c)
    (visits : List Visit)
    (horderly : (f.session now).Orderly used (visits.flatMap Visit.events))
    (hm : f.gateway.metrics = some m) (h : m.Accounts f.engine earlier) :
    ∃ m', (f.run visits).gateway.metrics = some m' ∧
      m'.Accounts (f.run visits).engine (earlier ++ f.log visits) := by
  induction visits generalizing f now used c m earlier with
  | nil => exact ⟨m, hm, by rwa [Front.log, List.append_nil]⟩
  | cons v visits ih =>
    have hserves : Serves (f.session now) f.gateway v.whole (f.serve v.whole) :=
      v.whole.serve_spec hopen now
    obtain ⟨hopen', hrun⟩ := f.after_spec hopen v now
    obtain ⟨hvisit, hvisits⟩ := Session.Orderly.append horderly
    obtain ⟨c', hsound'⟩ := hsound.sound_run hvisit
    obtain ⟨m', hm', h'⟩ := h.append hm hserves.isRecorded hsound hvisit
    rw [hrun] at hsound' hvisits h'
    rw [Front.log, List.append_cons]
    exact ih (f := f.after v) hopen' hsound' hvisits ((congrArg _ (f.gateway_after v)).trans hm') h'

end Front

/-! ### The accounts of a node -/

namespace Node

variable {n : Node} {used : List ProposalId} {now : Timestamp} {kept : Contents} {m : Metrics}
  {earlier : List Exchange}

/-- A turn keeps the accounts. -/
theorem accounts_after (hopen : n.IsOpen) (hsound : (n.session now).Sound used kept) (turn : Turn)
    (horderly : (n.session now).Orderly used (n.eventsOf turn)) (hm : n.metrics = some m)
    (h : m.Accounts n.engine earlier) : ∃ m', (n.after turn).metrics = some m' ∧
      m'.Accounts (n.after turn).engine (earlier ++ n.exchangesOf turn) := by
  have htakes := after_spec hopen now turn
  generalize n.after turn = n', n.eventsOf turn = events, n.exchangesOf turn = exchanges
    at htakes horderly ⊢
  cases htakes with
  | idle turn n' hfile hengine hstore hmetrics =>
    rw [hengine, List.append_nil]
    exact ⟨m, hmetrics.trans hm, h⟩
  | heard v full n' hfile hengine hstore hopen' hrecorded =>
    rw [hengine]
    exact h.append hm hrecorded hsound horderly

/-- **Turns keep the accounts.** -/
theorem accounts_run (hopen : n.IsOpen) (hsound : (n.session now).Sound used kept)
    (turns : List Turn) (horderly : (n.session now).Orderly used (n.events turns))
    (hm : n.metrics = some m) (h : m.Accounts n.engine earlier) :
    ∃ m', (n.run turns).metrics = some m' ∧
      m'.Accounts (n.run turns).engine (earlier ++ n.log turns) := by
  induction turns generalizing n now used kept m earlier with
  | nil => exact ⟨m, hm, by rwa [Node.log, List.append_nil]⟩
  | cons turn turns ih =>
    have htakes := after_spec hopen now turn
    obtain ⟨hturn, hturns⟩ := horderly.append
    obtain ⟨kept', hsound'⟩ := hsound.sound_run hturn
    obtain ⟨m', hm', h'⟩ := accounts_after hopen hsound turn hturn hm h
    rw [htakes.session_eq] at hsound' hturns
    rw [Node.log, ← List.append_assoc]
    exact ih htakes.isOpen hsound' hturns hm' h'

/-- **The metrics of a node never drift from its engine** and from what it has answered, whatever
earlier nodes have left in its data folder, and whatever requests come. So it is with a gateway in
front of any store, whatever writes the store refuses, if memory and store agree at first. The gauge
shows the number of open proposals as a signed number of 64 bits. -/
theorem metrics_are_accounts :
    (∀ (c : Config) (fs fs' : Files) (n : Node) (used : List ProposalId) (turns : List Turn),
      LeftBy n.file used fs → Node.new c fs = (.ok n, fs') → c.enableMetrics = true →
        (n.session 0).Orderly used (n.events turns) → ∃ m, (n.run turns).metrics = some m ∧
          m.Accounts (n.run turns).engine (n.log turns)) ∧
    (∀ (σ : Type) [Store σ] [LawfulStore σ] (f : Front σ) (c : Contents) (used : List ProposalId)
        (visits : List Visit), f.gateway.IsOpen → f.gateway.metrics = metricsOf true f.engine →
      (f.session 0).Sound used c → (f.session 0).Orderly used (visits.flatMap Visit.events) →
        ∃ m, (f.run visits).gateway.metrics = some m ∧
          m.Accounts (f.run visits).engine (f.log visits)) ∧
    ∀ (m : Metrics) (e : Engine) (log : List Exchange), m.Accounts e log → e.openCount < 2 ^ 63 →
      m.openProposals.toInt = e.openCount := by
  refine ⟨?_, ?_, fun m e log h hlt => h.shows.toInt_eq hlt⟩
  · intro c fs fs' n used turns hleft hnew hmetrics horderly
    have hmade := madeFrom_of_new hnew
    obtain ⟨kept, hsound⟩ := hmade.sound (hleft.isSound hmade.isFile) 0
    obtain ⟨m, hm, h⟩ := Metrics.exists_accounts_nil (hmetrics ▸ hmade.metrics_eq)
    exact accounts_run (isOpen_of_none hmade.listening_eq) hsound turns horderly hm h
  · intro σ _ _ f c used visits hopen hmetrics hsound horderly
    obtain ⟨m, hm, h⟩ := Metrics.exists_accounts_nil hmetrics
    exact Front.accounts_run hopen hsound visits horderly hm h

/-- A proposal, and a vote without a voter. The node that comes next starts with the proposal, and a
store that refuses writes refuses it. -/
theorem metrics_are_accounts_of_missing_voter :
    let p : ProposalId := ⟨.replicate 16 1, rfl⟩
    let c : Config := { dataDir := "data", enableMetrics := true }
    let notes := Std.ExtTreeMap.empty.insert (Text.Utf8.encode Tables.versionKey)
      (Bytes.littleEndian 4 1)
    let tables : Tables := { Tables.empty with notes }
    let fs : Files := ((Files.empty.put ["data"] .folder).put ["data", "lock.mdb"] (.text "")).put
      ["data", "data.mdb"] (.tables tables)
    let n : Node := ⟨c, .new c.rules, tables, ["data", "data.mdb"],
      metricsOf true (.new c.rules), {}, none⟩
    let propose : Visit := ⟨⟨5, p, 0, 0⟩, ⟨.post, "/propose", some "application/json",
      Text.Utf8.encode "[1, \"tea\"]"⟩⟩
    let vote : Visit := ⟨⟨6, p, 0, 0⟩, ⟨.post, "/vote", some "application/json",
      Text.Utf8.encode "[\"01010101010101010101010101010101\"]"⟩⟩
    let turns : List Turn := [.start, .request propose, .request vote]
    let f : Front MemoryStore := ⟨⟨⟨1, false, ∅⟩, metricsOf true (.new {})⟩, .new {},
      MemoryStore.empty.setFailing true⟩
    (LeftBy n.file [] .empty ∧ Node.new c .empty = (.ok n, fs) ∧ c.enableMetrics = true ∧
      (n.session 0).Orderly [] (n.events turns)) ∧
      (∃ m, (n.run turns).metrics = some m ∧ m.openProposals.toInt = 1 ∧ m.created = 1 ∧
        m.votes = 0 ∧ m.rejected.getD "invalid_request" 0 = 1) ∧
      (∃ next fs' m, Node.new c ((n.run turns).save fs) = (.ok next, fs') ∧
        next.metrics = some m ∧ m.openProposals.toInt = 1 ∧ m.created = 0) ∧
      ∃ m, (f.run [propose]).gateway.metrics = some m ∧ m.openProposals.toInt = 0 ∧
        m.created = 0 ∧ m.rejected.getD "store" 0 = 1 := by
  intro p c notes tables fs n propose vote turns f
  have hleft : LeftBy n.file [] .empty := .empty _ rfl
  have hnew : Node.new c .empty = (.ok n, fs) := by
    dsimp only [c, notes, tables, fs, n]
    rfl
  have horderly : (n.session 0).Orderly [] (n.events turns) := by
    have hevents : n.events turns = [.clock 5, .propose p 1 "tea"] := by decide +kernel
    exact hevents ▸ Session.orderly_start_propose (Tables.keeps_empty notes) 5 p 1 "tea"
  refine ⟨⟨hleft, hnew, rfl, horderly⟩, ?_, ?_, ?_⟩
  · obtain ⟨m, hm, h⟩ := metrics_are_accounts.1 c .empty fs n [] turns hleft hnew rfl horderly
    have hcount : (n.run turns).engine.openCount = 1 := by decide +kernel
    have hopen := metrics_are_accounts.2.2 m _ _ h (by rw [hcount]; decide)
    rw [hcount] at hopen
    refine ⟨m, hm, hopen, ?_, ?_, ?_⟩
    · rw [h.tallies.created]
      decide +kernel
    · rw [h.tallies.votes]
      decide +kernel
    · rw [h.tallies.rejected]
      decide +kernel
  · have hlife := LeftBy.life [] c .empty fs n turns hleft hnew rfl horderly
    have hmade : (Node.new c ((n.run turns).save fs)).1.map
        (fun next => (next.file, next.engine.openCount)) = .ok (n.file, 1) := by decide +kernel
    cases hnext : Node.new c ((n.run turns).save fs) with
    | mk made fs' =>
      rw [hnext] at hmade
      cases made with
      | error e => cases hmade
      | ok next =>
        obtain ⟨hfile, hcount⟩ := Prod.ext_iff.1 (Except.ok.inj hmade)
        replace hfile : next.file = n.file := hfile
        replace hcount : next.engine.openCount = 1 := hcount
        obtain ⟨m, hm, h⟩ := metrics_are_accounts.1 c _ fs' next _ [] (hfile ▸ hlife) hnext rfl
          ⟨nofun, trivial, .nil, nofun⟩
        have hopen := metrics_are_accounts.2.2 m _ _ h (by rw [run_nil, hcount]; decide)
        rw [run_nil, hcount] at hopen
        exact ⟨next, fs', m, rfl, hm, hopen, h.tallies.created⟩
  · have hkeeps : LawfulStore.Keeps (MemoryStore.empty.setFailing true) .empty :=
      MemoryStore.contents_empty
    have hevents : [propose].flatMap Visit.events = [.clock 5, .propose p 1 "tea"] := by
      decide +kernel
    have horderly : (f.session 0).Orderly [] ([propose].flatMap Visit.events) :=
      hevents ▸ Session.orderly_start_propose hkeeps 5 p 1 "tea"
    obtain ⟨m, hm, h⟩ := metrics_are_accounts.2.1 MemoryStore f .empty [] [propose] rfl rfl
      (Session.sound_start hkeeps {} 0) horderly
    have hcount : (f.run [propose]).engine.openCount = 0 := by decide +kernel
    have hopen := metrics_are_accounts.2.2 m _ _ h (by rw [hcount]; decide)
    rw [hcount] at hopen
    refine ⟨m, hm, hopen, ?_, ?_⟩
    · rw [h.tallies.created]
      decide +kernel
    · rw [h.tallies.rejected]
      decide +kernel

end Node

end DelegatedVoting
