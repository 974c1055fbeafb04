import DelegatedVoting.Proofs.Atomicity
import DelegatedVoting.Proofs.Members
import DelegatedVoting.Proofs.Spellings

/-!
# What requests denote

A request that asks for a change denotes one call of the engine, if its content can be read and the
proposal that it names is a name; a request that only looks something up denotes what it looks up.
Everything else denotes nothing.

* `Visit`: a request and the moment at which it comes;
* `Visit.event?`, `Visit.lookup?`: the call that a request denotes, and what it looks up;
* `Visit.ofRequest_of_isWrite`, `ofRequest_of_isRead`: the gateway reads requests in this way.
-/

namespace DelegatedVoting.Gateway

open Json

/-- A request, and the moment at which it comes. -/
structure Visit where
  moment : Moment
  request : Request

/-- The document that the content of a request spells. -/
def Request.document (r : Request) : Json := .ofGlyphs (Text.Utf8.glyphs r.body)

/-- What can be looked up in the engine. -/
inductive Lookup
  | list (page : Listing.PageRequest)
  | proposal (p : ProposalId)
  | preview (p : ProposalId)
  | history (p : ProposalId) (v : ParticipantId)
  deriving DecidableEq

/-- The call that looks it up. -/
def Lookup.call : Lookup → Call
  | .list page => .list page
  | .proposal p => .proposal p
  | .preview p => .preview p
  | .history p v => .history p v

/-- The proposal that a text names, if it names one. -/
def named? (text : String) : Option ProposalId := (ProposalId.parse text).toOption

/-- The text of a part of a path, if it is a text. -/
def text? (part : List Char) : Option String := (Text.Percent.decodeText part).toOption

namespace Visit

/-- The call of the engine that a request denotes. -/
def event? (v : Visit) : Option Session.Event :=
  if v.request.method = .post then
    match Route.ofPath? v.request.path with
    | some .propose => (v.request.content Content.propose).toOption.map fun c =>
      .propose v.moment.fresh c.1 c.2
    | some .vote => (v.request.content Content.vote).toOption.bind fun c =>
      (named? c.1).map fun p => .vote p c.2.1 c.2.2
    | some .delegate => (v.request.content Content.delegate).toOption.bind fun c =>
      (named? c.1).map fun p => .delegate p c.2.1 c.2.2
    | some .finalize => (v.request.content Content.finalize).toOption.bind fun c =>
      (named? c.1).map fun p => .finalize p c.2
    | _ => none
  else none

/-- What a request looks up in the engine. -/
def lookup? (v : Visit) : Option Lookup :=
  if v.request.method = .get ∨ v.request.method = .head then
    match Route.ofPath? v.request.path with
    | some .list => (pageRequest? v.request.query).map .list
    | some (.proposal id) => ((text? id).bind named?).map .proposal
    | some (.tally id) => ((text? id).bind named?).map .preview
    | some (.ballots id voter) => ((text? id).bind named?).bind fun p =>
      ((text? voter).bind fun text => ParticipantId.read? text.toList).map (.history p)
    | _ => none
  else none

/-- What happens to the engine when a request comes. -/
def events (v : Visit) : List Session.Event :=
  match v.event? with
  | some event => [.clock v.moment.now, event]
  | none => []

end Visit

/-- The call of the gateway is the call of the engine. -/
inductive Calls (m : Moment) : Call → Session.Event → Prop
  | propose (v : ParticipantId) (text : String) :
    Calls m (.propose v text) (.propose m.fresh v text)
  | vote (p : ProposalId) (v : ParticipantId) (isYes : Bool) :
    Calls m (.vote p v isYes) (.vote p v isYes)
  | delegate (p : ProposalId) (v delegate : ParticipantId) :
    Calls m (.delegate p v delegate) (.delegate p v delegate)
  | finalize (p : ProposalId) (v : ParticipantId) : Calls m (.finalize p v) (.finalize p v)

/-- The route on which a call of the engine is denoted. -/
def callRoute? : Session.Event → Option Route
  | .propose .. => some .propose
  | .vote .. => some .vote
  | .delegate .. => some .delegate
  | .finalize .. => some .finalize
  | _ => none

theorem Visit.route_of_event? {v : Visit} {event : Session.Event} (h : v.event? = some event) :
    v.request.method = .post ∧ ∃ route, Route.ofPath? v.request.path = some route ∧
      callRoute? event = some route := by
  unfold event? at h
  split at h
  · rename_i hpost
    refine ⟨hpost, ?_⟩
    split at h
    · rename_i hroute
      obtain ⟨c, -, rfl⟩ := Option.map_eq_some_iff.1 h
      exact ⟨.propose, hroute, rfl⟩
    · rename_i hroute
      obtain ⟨c, -, hc⟩ := Option.bind_eq_some_iff.1 h
      obtain ⟨p, -, rfl⟩ := Option.map_eq_some_iff.1 hc
      exact ⟨.vote, hroute, rfl⟩
    · rename_i hroute
      obtain ⟨c, -, hc⟩ := Option.bind_eq_some_iff.1 h
      obtain ⟨p, -, rfl⟩ := Option.map_eq_some_iff.1 hc
      exact ⟨.delegate, hroute, rfl⟩
    · rename_i hroute
      obtain ⟨c, -, hc⟩ := Option.bind_eq_some_iff.1 h
      obtain ⟨p, -, rfl⟩ := Option.map_eq_some_iff.1 hc
      exact ⟨.finalize, hroute, rfl⟩
    · cases h
  · cases h

/-! ### The gateway reads requests in this way -/

theorem named?_eq_some_iff {text : String} {p : ProposalId} :
    named? text = some p ↔ p.IsSpelledBy ProposalId.IsScheme text := by
  rw [named?, toOption_eq_some_iff, ProposalId.parse_eq_ok_iff]

/-- Blanks around a text do not matter to what it spells. -/
theorem isSpelledBy_trim_iff {text : String} {p : ProposalId} :
    p.IsSpelledBy ProposalId.IsScheme (String.ofList (Text.trim text.toList)) ↔
      p.IsSpelledBy ProposalId.IsScheme text := by
  simp only [ProposalId.IsSpelledBy, String.toList_ofList]
  constructor
  · rintro ⟨front, s, back, htrim, hfront, hback, hs⟩
    obtain ⟨before, after, htext, hbefore, hafter⟩ := Text.exists_trim text.toList
    refine ⟨before ++ front, s, back ++ after, ?_, ?_, ?_, hs⟩
    · rw [htext, htrim]
      simp only [List.append_assoc]
    · exact fun c hc => (List.mem_append.1 hc).elim (hbefore c) (hfront c)
    · exact fun c hc => (List.mem_append.1 hc).elim (hback c) (hafter c)
  · rintro ⟨front, s, back, htext, hfront, hback, hs⟩
    refine ⟨[], s, [], ?_, nofun, nofun, hs⟩
    rw [htext, Text.trim_append hfront hback hs.not_isBlank, List.nil_append, List.append_nil]

/-- The gateway reads the names of proposals as they are spelled. -/
theorem toOption_proposalNamed (text : String) : (proposalNamed text).toOption = named? text := by
  ext p
  rw [toOption_eq_some_iff, proposalNamed, mapError_eq_ok_iff, ProposalId.parse_eq_ok_iff,
    isSpelledBy_trim_iff, named?_eq_some_iff]

/-- How the reading of a request that asks for a change can go. -/
inductive WriteSpec (v : Visit) : Except BadRequest Call → Option Session.Event → Prop
  | bad (x : BadRequest) : WriteSpec v (.error x) none
  | call (call : Call) (event : Session.Event) (hcalls : Calls v.moment call event) :
    WriteSpec v (.ok call) (some event)

/-- How the reading of a request that looks something up can go. -/
inductive ReadSpec : Except BadRequest Call → Option Lookup → Prop
  | bad (x : BadRequest) : ReadSpec (.error x) none
  | call (l : Lookup) : ReadSpec (.ok l.call) (some l)

variable {v : Visit} {route : Route}

/-- A call about a proposal is denoted if the content can be read and the proposal has a name. -/
theorem WriteSpec.named {α : Type} (content : Except BadRequest α) (text : α → String)
    (call : α → ProposalId → Call) (event : α → ProposalId → Session.Event)
    (hcalls : ∀ c p, Calls v.moment (call c p) (event c p)) :
    WriteSpec v (content.bind fun c => (proposalNamed (text c)).bind fun p => .ok (call c p))
      (content.toOption.bind fun c => (named? (text c)).map (event c)) := by
  cases content with
  | error x => exact .bad x
  | ok c =>
    simp only [Except.bind, Except.toOption, Option.bind_some, ← toOption_proposalNamed]
    cases proposalNamed (text c) with
    | error x => exact .bad x
    | ok p => exact .call (call c p) (event c p) (hcalls c p)

theorem Visit.ofRequest_of_isWrite (hroute : Route.ofPath? v.request.path = some route)
    (hpost : v.request.method = .post) (hwrite : route.isWrite = true) :
    WriteSpec v (Call.ofRequest v.request route) v.event? := by
  rw [Visit.event?, if_pos hpost, hroute]
  cases route with
  | propose =>
    show WriteSpec v ((v.request.content Content.propose).bind fun c => .ok (.propose c.1 c.2)) _
    cases v.request.content Content.propose with
    | error x => exact .bad x
    | ok c => exact .call _ _ (.propose c.1 c.2)
  | vote =>
    exact .named (v.request.content Content.vote) Prod.fst (fun c p => .vote p c.2.1 c.2.2)
      (fun c p => .vote p c.2.1 c.2.2) fun c p => .vote p c.2.1 c.2.2
  | delegate =>
    exact .named (v.request.content Content.delegate) Prod.fst
      (fun c p => .delegate p c.2.1 c.2.2) (fun c p => .delegate p c.2.1 c.2.2)
      fun c p => .delegate p c.2.1 c.2.2
  | finalize =>
    exact .named (v.request.content Content.finalize) Prod.fst (fun c p => .finalize p c.2)
      (fun c p => .finalize p c.2) fun c p => .finalize p c.2
  | _ => cases hwrite

/-- The proposal in a path is looked up if it has a name. -/
theorem ReadSpec.named (part : List Char) (l : ProposalId → Lookup) :
    ReadSpec ((pathText "id" part).bind fun text => (proposalNamed text).bind fun p =>
      .ok (l p).call) (((text? part).bind named?).map l) := by
  unfold pathText text?
  cases Text.Percent.decodeText part with
  | error => exact .bad _
  | ok text =>
    simp only [Except.bind, Except.mapError, Except.toOption, Option.bind_some,
      ← toOption_proposalNamed]
    cases proposalNamed text with
    | error x => exact .bad x
    | ok p => exact .call (l p)

/-- The history in a path is looked up if the proposal has a name and the participant a number. -/
theorem ReadSpec.numbered (part other : List Char) (l : ProposalId → ParticipantId → Lookup) :
    ReadSpec ((pathText "id" part).bind fun text => (pathText "voter_id" other).bind fun voter =>
        match ParticipantId.read? voter.toList with
        | none => .error (.pathNumber 1 voter)
        | some v => (proposalNamed text).bind fun p => .ok (l p v).call)
      (((text? part).bind named?).bind fun p =>
        ((text? other).bind fun text => ParticipantId.read? text.toList).map (l p)) := by
  unfold pathText text?
  cases Text.Percent.decodeText part with
  | error => exact .bad _
  | ok text =>
    simp only [Except.bind, Except.mapError, Except.toOption, Option.bind_some,
      ← toOption_proposalNamed]
    cases Text.Percent.decodeText other with
    | error =>
      cases proposalNamed text <;> exact .bad _
    | ok voter =>
      simp only [Option.bind_some]
      cases ParticipantId.read? voter.toList with
      | none => cases proposalNamed text <;> exact .bad _
      | some v =>
        cases proposalNamed text with
        | error x => exact .bad x
        | ok p => exact .call (l p v)

theorem Visit.ofRequest_of_isRead (hroute : Route.ofPath? v.request.path = some route)
    (hget : v.request.method = .get ∨ v.request.method = .head) (hread : route.isWrite = false)
    (hhealth : route ≠ .health) (hmetrics : route ≠ .metrics) :
    ReadSpec (Call.ofRequest v.request route) v.lookup? := by
  rw [Visit.lookup?, if_pos hget, hroute]
  cases route with
  | list =>
    simp only [Call.ofRequest]
    cases pageRequest? v.request.query with
    | none => exact .bad .query
    | some page => exact .call (.list page)
  | proposal id => exact .named id .proposal
  | tally id => exact .named id .preview
  | ballots id voter => exact .numbered id voter .history
  | health => exact absurd rfl hhealth
  | metrics => exact absurd rfl hmetrics
  | _ => cases hread

end DelegatedVoting.Gateway
