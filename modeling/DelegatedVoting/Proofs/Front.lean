import DelegatedVoting.Proofs.Serving

/-!
# The gateway is a faithful front of the engine

Requests that are answered one after the other do to the engine and the store what the calls that
they denote do, in their order, and nothing else; each answer tells the result of its call.

* `Front`, `Front.serve`, `Front.run`: a gateway in front of an engine, after requests;
* `Front.after_spec`, `Front.run_spec`: what requests have done is what their calls have done;
* `Front.run_is_faithful`: what the next answer tells as well.
-/

namespace DelegatedVoting

/-- A gateway in front of an engine over a store. -/
structure Front (σ : Type) where
  gateway : Gateway
  engine : Engine
  store : σ

namespace Front

open Gateway

variable {σ : Type} [Store σ]

/-- The answer to a request, and what is there after it. -/
def serve (f : Front σ) (v : Visit) : Served σ :=
  f.gateway.serve f.engine f.store v.moment v.request

/-- The front after a request. -/
def after (f : Front σ) (v : Visit) : Front σ :=
  ⟨(f.serve v).gateway, (f.serve v).engine, (f.serve v).store⟩

/-- The front after requests that are answered one after the other. -/
def run (f : Front σ) (visits : List Visit) : Front σ := visits.foldl after f

/-- The engine and the store behind the gateway. -/
def session (f : Front σ) (now : Timestamp) : Session σ := ⟨f.engine, f.store, now⟩

/-- What a request has done is what its call has done. -/
theorem after_spec [LawfulStore σ] (f : Front σ) (hopen : f.gateway.IsOpen) (v : Visit)
    (now : Timestamp) : (f.after v).gateway.IsOpen ∧
      (f.session now).run v.events = (f.after v).session ((f.session now).run v.events).now := by
  have hserves : Serves (f.session now) f.gateway v (f.serve v) := v.serve_spec hopen now
  refine ⟨hserves.isOpen, ?_⟩
  show _ = Session.mk (f.serve v).engine (f.serve v).store _
  rw [hserves.engine_eq, hserves.store_eq]

/-- **What requests have done is what their calls have done.** -/
theorem run_spec [LawfulStore σ] {f : Front σ} (hopen : f.gateway.IsOpen) (visits : List Visit)
    (now : Timestamp) :
    (f.run visits).gateway.IsOpen ∧ ∃ now',
      (f.session now).run (visits.flatMap Visit.events) = (f.run visits).session now' := by
  induction visits generalizing f now with
  | nil => exact ⟨hopen, now, rfl⟩
  | cons v visits ih =>
    obtain ⟨hopen', hafter⟩ := f.after_spec hopen v now
    obtain ⟨hopen'', now', hrun⟩ := ih hopen' ((f.session now).run v.events).now
    refine ⟨hopen'', now', ?_⟩
    rw [List.flatMap_cons, Session.run_append, hafter]
    exact hrun

/-- **The gateway is a faithful front of the engine.** Requests that are answered one after the
other leave the engine and the store as the calls do that they denote, and so does the next request.
What a request does is its call, at the moment at which it comes, and the answer tells the result; a
request that denotes no call changes nothing, and the answer tells what it looks up, if it looks
something up. The document of a content is the one that the text of the content spells. -/
theorem run_is_faithful [LawfulStore σ] {f : Front σ} (hopen : f.gateway.IsOpen)
    (visits : List Visit) (v : Visit) (now : Timestamp) :
    let s := (f.session now).run (visits.flatMap Visit.events)
    let done := (f.run visits).serve v
    ((f.run visits).engine = s.engine ∧ (f.run visits).store = s.store) ∧
      (done.engine = (s.run v.events).engine ∧ done.store = (s.run v.events).store) ∧
      v.IsAnswered s done.response ∧
      (∀ event, v.Denotes event → v.events = [.clock v.moment.now, event] ∧
        Answers ((s.step (.clock v.moment.now)).respond event).1 (ShowsReply event)
          done.response) ∧
      ((∀ event, ¬ v.Denotes event) → v.events = [] ∧
        done.engine = (f.run visits).engine ∧ done.store = (f.run visits).store) ∧
      (∀ l, v.LooksUp l → (∀ event, ¬ v.Denotes event) ∧
        ∃ full, done.response = .under v.request.method full ∧ l.Answers s.engine full) ∧
      ∀ d text, d.Spells text → v.request.body = Text.Utf8.encode (String.ofList text) →
        v.request.document = d := by
  intro s done
  obtain ⟨hopen', now', hrun⟩ := run_spec hopen visits now
  have hserves : Serves ((f.run visits).session now') (f.run visits).gateway v done :=
    v.serve_spec hopen' now'
  have hs : s = (f.run visits).session now' := hrun
  rw [hs]
  have hanswered := hserves.isAnswered
  refine ⟨⟨rfl, rfl⟩, ⟨hserves.engine_eq, hserves.store_eq⟩, hanswered, fun event h =>
    ⟨Visit.events_eq_iff.2 h, hanswered.answers_call h⟩, fun hnone => ?_, fun l h =>
    ⟨h.not_denotes, hanswered.answers_lookup h⟩, fun d text => Request.document_of_spells⟩
  have hevents : v.events = [] := Visit.events_eq_nil_iff.2 hnone
  rw [hserves.engine_eq, hserves.store_eq, hevents]
  exact ⟨rfl, rfl, rfl⟩

/-- A proposal is named in capital letters and with a blank in front of the name. A vote on it, a
delegation under the older name of the delegate and its finalization are accepted, a vote without a
voter changes nothing, and the history of the delegation can be looked up. -/
theorem run_is_faithful_of_finalized_proposal :
    let p : ProposalId := ⟨.replicate 16 0xAB, rfl⟩
    let f : Front MemoryStore := ⟨⟨⟨1, false, ∅⟩, none⟩, .new {}, .empty⟩
    let name : Json := .ofString " ABABABAB-ABAB-ABAB-ABAB-ABABABABABAB"
    let visit (method : Method) (target : String) (members : List (String × Json)) : Visit :=
      ⟨⟨5, p, 0, 0⟩, ⟨method, target, some "application/json",
        Text.Utf8.encode (String.ofList (Json.ofMembers members).write)⟩⟩
    let propose := visit .post "/propose"
      [("proposer_id", .ofNat 1), ("statement", .ofString "tea")]
    let vote := visit .post "/vote"
      [("proposal_id", name), ("voter_id", .ofNat 2), ("is_yes", .flag true)]
    let nobody := visit .post "/vote" [("proposal_id", name), ("is_yes", .flag true)]
    let delegate := visit .post "/delegate"
      [("delegator_id", .ofNat 2), ("voter_id", .ofNat 3), ("proposal_id", name)]
    let finalize := visit .post "/finalize" [("proposal_id", name), ("finalizer_id", .ofNat 4)]
    let history := visit .get "/proposals/abababababababababababababababab/ballots/3" []
    let calls : List Session.Event := [.clock 5, .propose p 1 "tea", .clock 5, .vote p 2 true]
    let more : List Session.Event := [.clock 5, .delegate p 3 2, .clock 5, .finalize p 4]
    f.gateway.IsOpen ∧
      ((f.run [propose, vote]).engine = ((f.session 0).run calls).engine ∧
        ∃ d, ((f.run [propose]).serve vote).response = ⟨200, .json d⟩ ∧
          Document.ShowsAccepted p 2 1 d) ∧
      ((f.run [propose, vote, delegate, finalize]).engine =
          ((f.session 0).run (calls ++ more)).engine ∧
        ∃ d, ((f.run [propose, vote, delegate]).serve finalize).response = ⟨200, .json d⟩ ∧
          Document.ShowsTally ⟨p, 2, 0, 0, .passed, 4, 5⟩ d) ∧
      ((f.run [propose, nobody]).engine = (f.run [propose]).engine) ∧
      ∃ d, ((f.run [propose, vote, delegate]).serve history).response = ⟨200, .json d⟩ ∧
        Document.ShowsHistory p 3 [⟨.delegation 3 2 2, 5⟩] d := by
  intro p f name visit propose vote nobody delegate finalize history calls more
  have hopen : f.gateway.IsOpen := rfl
  have hpropose : propose.event? = some (.propose p 1 "tea") := by decide +kernel
  have hvote : vote.event? = some (.vote p 2 true) := by decide +kernel
  have hdelegate : delegate.event? = some (.delegate p 3 2) := by decide +kernel
  have hfinalize : finalize.event? = some (.finalize p 4) := by decide +kernel
  have hnobody : nobody.event? = none := by decide +kernel
  have hhistory : history.lookup? = some (.history p 3) := by decide +kernel
  have hcalls : [propose, vote].flatMap Visit.events = calls := by
    simp only [List.flatMap_cons, Visit.events, hpropose, hvote]
    rfl
  have hmore : [propose, vote, delegate].flatMap Visit.events =
      calls ++ [.clock 5, .delegate p 3 2] := by
    simp only [List.flatMap_cons, Visit.events, hpropose, hvote, hdelegate]
    rfl
  refine ⟨hopen, ⟨?_, ?_⟩, ⟨?_, ?_⟩, ?_, ?_⟩
  · obtain ⟨⟨hengine, -⟩, -⟩ := run_is_faithful hopen [propose, vote] vote 0
    rwa [hcalls] at hengine
  · obtain ⟨-, -, -, hcall, -⟩ := run_is_faithful hopen [propose] vote 0
    have hanswers := (hcall _ (Visit.event?_eq_some_iff.1 hvote)).2
    have hevents : [propose].flatMap Visit.events = [.clock 5, .propose p 1 "tea"] := by
      simp only [List.flatMap_cons, Visit.events, hpropose]
      rfl
    have hreply : ((((f.session 0).run [.clock 5, .propose p 1 "tea"]).step (.clock 5)).respond
        (.vote p 2 true)).1 = .ok (.action (.vote 2 true 1)) := by
      decide +kernel
    rw [hevents, show vote.moment.now = 5 from rfl, hreply] at hanswers
    exact hanswers.exists_json
  · obtain ⟨-, ⟨hengine, -⟩, -⟩ := run_is_faithful hopen [propose, vote, delegate] finalize 0
    rw [hmore, ← Session.run_append] at hengine
    simp only [Visit.events, hfinalize] at hengine
    exact hengine
  · obtain ⟨-, -, -, hcall, -⟩ := run_is_faithful hopen [propose, vote, delegate] finalize 0
    have hanswers := (hcall _ (Visit.event?_eq_some_iff.1 hfinalize)).2
    have hreply : ((((f.session 0).run (calls ++ [.clock 5, .delegate p 3 2])).step
        (.clock 5)).respond (.finalize p 4)).1 = .ok (.tally ⟨p, 2, 0, 0, .passed, 4, 5⟩) := by
      decide +kernel
    rw [hmore, show finalize.moment.now = 5 from rfl, hreply] at hanswers
    exact hanswers.exists_json
  · obtain ⟨-, -, -, -, hnothing, -⟩ := run_is_faithful hopen [propose] nobody 0
    exact (hnothing (Visit.event?_eq_none_iff.1 hnobody)).2.1
  · obtain ⟨-, -, -, -, -, hlookup, -⟩ :=
      run_is_faithful hopen [propose, vote, delegate] history 0
    obtain ⟨-, full, hresponse, hanswers⟩ := hlookup _ (Visit.lookup?_eq_some_iff.1 hhistory)
    have hfound : ((f.session 0).run (calls ++ [.clock 5, .delegate p 3 2])).engine.history p 3 =
        .ok [⟨.delegation 3 2 2, 5⟩] := by
      decide +kernel
    rw [hmore, Lookup.Answers, hfound] at hanswers
    rw [hresponse, Response.under_of_ne (by decide)]
    exact hanswers.exists_json

end Front

end DelegatedVoting
