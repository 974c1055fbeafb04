import DelegatedVoting.Proofs.Addresses
import DelegatedVoting.Proofs.JsonDocuments
import DelegatedVoting.Proofs.Requests
import DelegatedVoting.Proofs.Utf8

/-!
# The requests that denote a call

Which requests denote which call is stated apart from their reading: by the path, by what the
content says, and by the spellings of the name of a proposal. The call that is read from a request
is the one that it denotes in this sense, and a request that denotes one is never refused.

* `Request.document_of_spells`: the document of a request is the one that the text of its content
  spells;
* `Content.SaysPropose`, `SaysVote`, `SaysDelegate`, `SaysFinalize`: what contents say;
* `Request.Asks`, `Visit.Denotes`, `Visit.event?_eq_some_iff`: the call that a request denotes;
* `Visit.LooksUp`, `Visit.lookup?_eq_some_iff`: what a request looks up.
-/

namespace DelegatedVoting.Gateway

open Json

/-! ### Contents -/

/-- **The document of a request is the one that the text of its content spells.** -/
theorem Request.document_of_spells {r : Request} {d : Json} {s : List Char} (h : d.Spells s)
    (hbody : r.body = Text.Utf8.encode (String.ofList s)) : r.document = d := by
  have htext := ofText?_of_spells h
  rw [Request.document, hbody, Text.Utf8.glyphs_encode, String.toList_ofList]
  unfold ofText? at htext
  split at htext
  · rename_i heq
    rw [ofGlyphs, heq]
    exact Option.some.inj htext
  · cases htext

namespace Content

/-- The content says who proposes which statement. -/
def SaysPropose (proposer : ParticipantId) (statement : String) : Json → Prop :=
  Says [(["proposer_id"], IsNumber proposer.toNat), (["statement"], IsText statement)]

/-- The content says on which proposal who votes, and how. -/
def SaysVote (id : String) (voter : ParticipantId) (isYes : Bool) : Json → Prop :=
  Says [(["proposal_id"], IsText id), (["voter_id"], IsNumber voter.toNat),
    (["is_yes"], IsFlag isYes)]

/-- The content says on which proposal who delegates, and to whom. The delegate has an older name,
too. -/
def SaysDelegate (id : String) (voter delegate : ParticipantId) : Json → Prop :=
  Says [(["proposal_id"], IsText id), (["voter_id"], IsNumber voter.toNat),
    (["delegate_id", "delegator_id"], IsNumber delegate.toNat)]

/-- The content says which proposal is finalized by whom. -/
def SaysFinalize (id : String) (finalizer : ParticipantId) : Json → Prop :=
  Says [(["proposal_id"], IsText id), (["finalizer_id"], IsNumber finalizer.toNat)]

variable {d : Json} {id statement : String} {v delegate : ParticipantId} {isYes : Bool}

/-- Reading a text, a number or a flag is finding one. -/
theorem read_text_eq : (fun d => Shape.text.read d = .ok statement) = IsText statement :=
  funext fun _ => propext Shape.read_text_eq_ok_iff

theorem read_word32_eq : (fun d => Shape.word32.read d = .ok v) = IsNumber v.toNat :=
  funext fun _ => propext Shape.read_word32_eq_ok_iff

theorem read_flag_eq : (fun d => Shape.flag.read d = .ok isYes) = IsFlag isYes :=
  funext fun _ => propext Shape.read_flag_eq_ok_iff

theorem read_propose_eq_ok_iff :
    propose.read d = .ok (v, statement) ↔ SaysPropose v statement d := by
  rw [SaysPropose, ← read_word32_eq, ← read_text_eq]
  exact (Shape.read_along_eq_ok_iff fun _ _ => ⟨fun h => h ▸ rfl, fun h => h ▸ rfl⟩).trans
    (Shape.read_record_eq_ok_iff (by decide) (by simp [Field.required]))

theorem read_vote_eq_ok_iff : vote.read d = .ok (id, v, isYes) ↔ SaysVote id v isYes d := by
  rw [SaysVote, ← read_text_eq, ← read_word32_eq, ← read_flag_eq]
  exact (Shape.read_along_eq_ok_iff fun _ _ => ⟨fun h => h ▸ rfl, fun h => h ▸ rfl⟩).trans
    (Shape.read_record_eq_ok_iff (by decide) (by simp [Field.required]))

theorem read_delegate_eq_ok_iff :
    Content.delegate.read d = .ok (id, v, delegate) ↔ SaysDelegate id v delegate d := by
  rw [SaysDelegate, ← read_text_eq, ← read_word32_eq, ← read_word32_eq]
  exact (Shape.read_along_eq_ok_iff fun _ _ => ⟨fun h => h ▸ rfl, fun h => h ▸ rfl⟩).trans
    (Shape.read_record_eq_ok_iff (by decide) (by simp [Field.required]))

theorem read_finalize_eq_ok_iff : finalize.read d = .ok (id, v) ↔ SaysFinalize id v d := by
  rw [SaysFinalize, ← read_text_eq, ← read_word32_eq]
  exact (Shape.read_along_eq_ok_iff fun _ _ => ⟨fun h => h ▸ rfl, fun h => h ▸ rfl⟩).trans
    (Shape.read_record_eq_ok_iff (by decide) (by simp [Field.required]))

end Content

/-! ### Calls -/

/-- The request asks for a change on a route, with a content of some kind: it is sent to the path of
the route, and its content is claimed to be JSON, is not too long, and says what it has to say. -/
structure Request.Asks (r : Request) (route : Route) (content : Json → Prop) : Prop where
  isPost : r.method = .post
  liesAt : route.LiesAt r.path
  isJson : ∃ m, r.contentType.bind MediaType.read? = some m ∧ m.isJson = true
  length_le : r.body.length ≤ 2097152
  content : content r.document

/-- The calls that requests denote. -/
inductive Visit.Denotes (v : Visit) : Session.Event → Prop
  | propose {proposer : ParticipantId} {statement : String}
    (h : v.request.Asks .propose (Content.SaysPropose proposer statement)) :
    Denotes v (.propose v.moment.fresh proposer statement)
  | vote {id : String} {p : ProposalId} {voter : ParticipantId} {isYes : Bool}
    (h : v.request.Asks .vote (Content.SaysVote id voter isYes))
    (hp : p.IsSpelledBy ProposalId.IsScheme id) : Denotes v (.vote p voter isYes)
  | delegate {id : String} {p : ProposalId} {voter delegate : ParticipantId}
    (h : v.request.Asks .delegate (Content.SaysDelegate id voter delegate))
    (hp : p.IsSpelledBy ProposalId.IsScheme id) : Denotes v (.delegate p voter delegate)
  | finalize {id : String} {p : ProposalId} {finalizer : ParticipantId}
    (h : v.request.Asks .finalize (Content.SaysFinalize id finalizer))
    (hp : p.IsSpelledBy ProposalId.IsScheme id) : Denotes v (.finalize p finalizer)

theorem Request.content_eq_ok_iff {α : Type} {r : Request} {shape : Shape α} {c : α} :
    r.content shape = .ok c ↔ (∃ m, r.contentType.bind MediaType.read? = some m ∧ m.isJson = true) ∧
      r.body.length ≤ 2097152 ∧ shape.read r.document = .ok c := by
  unfold Request.content
  rw [← Option.any_eq_true]
  split
  · rename_i hjson
    exact iff_of_false nofun fun h => hjson h.1
  · rename_i hjson
    rw [Classical.not_not] at hjson
    split
    · rename_i hlong
      exact iff_of_false nofun fun h => Nat.not_le.2 hlong h.2.1
    · rename_i hlong
      have hle : r.body.length ≤ 2097152 := Nat.le_of_not_lt hlong
      rw [mapError_eq_ok_iff, and_iff_right hjson, and_iff_right hle]
      rfl

/-- A content is read from the requests that ask with it. -/
theorem Request.content_eq_some_iff {α : Type} {r : Request} {route : Route} {shape : Shape α}
    {c : α} {content : Json → Prop} (hpost : r.method = .post)
    (hroute : Route.ofPath? r.path = some route)
    (hread : ∀ d, shape.read d = .ok c ↔ content d) :
    (r.content shape).toOption = some c ↔ r.Asks route content := by
  rw [toOption_eq_some_iff, content_eq_ok_iff, hread]
  exact ⟨fun h => ⟨hpost, Route.ofPath?_eq_some_iff.1 hroute, h.1, h.2.1, h.2.2⟩,
    fun h => ⟨h.isJson, h.length_le, h.content⟩⟩

/-- A call about a proposal is read from the requests that ask for it and name the proposal. -/
theorem Request.bind_content_eq_some_iff {α : Type} {r : Request} {route : Route} {shape : Shape α}
    {content : α → Json → Prop} {text : α → String} {call : α → ProposalId → Session.Event}
    {event : Session.Event} (hpost : r.method = .post) (hroute : Route.ofPath? r.path = some route)
    (hread : ∀ c d, shape.read d = .ok c ↔ content c d) :
    ((r.content shape).toOption.bind fun c => (named? (text c)).map (call c)) = some event ↔
      ∃ c p, r.Asks route (content c) ∧ p.IsSpelledBy ProposalId.IsScheme (text c) ∧
        call c p = event := by
  simp only [Option.bind_eq_some_iff, Option.map_eq_some_iff, named?_eq_some_iff,
    content_eq_some_iff hpost hroute (hread _)]
  exact exists_congr fun c => exists_and_left.symm

variable {v : Visit}

/-- **The call that is read from a request is the one that the request denotes.** -/
theorem Visit.event?_eq_some_iff {event : Session.Event} :
    v.event? = some event ↔ v.Denotes event := by
  constructor
  · intro h
    unfold event? at h
    split at h
    · rename_i hpost
      split at h
      · rename_i hroute
        obtain ⟨c, hc, rfl⟩ := Option.map_eq_some_iff.1 h
        exact .propose ((Request.content_eq_some_iff hpost hroute
          fun _ => Content.read_propose_eq_ok_iff).1 hc)
      · rename_i hroute
        obtain ⟨c, p, hasks, hp, rfl⟩ := (Request.bind_content_eq_some_iff hpost hroute
          fun _ _ => Content.read_vote_eq_ok_iff).1 h
        exact .vote hasks hp
      · rename_i hroute
        obtain ⟨c, p, hasks, hp, rfl⟩ := (Request.bind_content_eq_some_iff hpost hroute
          fun _ _ => Content.read_delegate_eq_ok_iff).1 h
        exact .delegate hasks hp
      · rename_i hroute
        obtain ⟨c, p, hasks, hp, rfl⟩ := (Request.bind_content_eq_some_iff hpost hroute
          fun _ _ => Content.read_finalize_eq_ok_iff).1 h
        exact .finalize hasks hp
      · cases h
    · cases h
  · intro h
    cases h with
    | propose hasks =>
      have hroute := hasks.liesAt.ofPath?_eq
      rw [event?, if_pos hasks.isPost, hroute]
      exact Option.map_eq_some_iff.2 ⟨_, (Request.content_eq_some_iff hasks.isPost hroute
        fun _ => Content.read_propose_eq_ok_iff).2 hasks, rfl⟩
    | vote hasks hp =>
      have hroute := hasks.liesAt.ofPath?_eq
      rw [event?, if_pos hasks.isPost, hroute]
      exact (Request.bind_content_eq_some_iff hasks.isPost hroute
        fun _ _ => Content.read_vote_eq_ok_iff).2 ⟨(_, _, _), _, hasks, hp, rfl⟩
    | delegate hasks hp =>
      have hroute := hasks.liesAt.ofPath?_eq
      rw [event?, if_pos hasks.isPost, hroute]
      exact (Request.bind_content_eq_some_iff hasks.isPost hroute
        fun _ _ => Content.read_delegate_eq_ok_iff).2 ⟨(_, _, _), _, hasks, hp, rfl⟩
    | finalize hasks hp =>
      have hroute := hasks.liesAt.ofPath?_eq
      rw [event?, if_pos hasks.isPost, hroute]
      exact (Request.bind_content_eq_some_iff hasks.isPost hroute
        fun _ _ => Content.read_finalize_eq_ok_iff).2 ⟨(_, _), _, hasks, hp, rfl⟩

theorem Visit.event?_eq_none_iff : v.event? = none ↔ ∀ event, ¬ v.Denotes event := by
  simp only [Option.eq_none_iff_forall_ne_some, ne_eq, event?_eq_some_iff]

/-- What happens when a request comes is the call that it denotes, and before it the moment at which
it comes. -/
theorem Visit.events_eq_iff {event : Session.Event} :
    v.events = [.clock v.moment.now, event] ↔ v.Denotes event := by
  rw [← event?_eq_some_iff, events]
  cases v.event? <;> simp

/-- Nothing happens when a request comes that denotes no call. -/
theorem Visit.events_eq_nil_iff : v.events = [] ↔ ∀ event, ¬ v.Denotes event := by
  rw [← event?_eq_none_iff, events]
  cases v.event? <;> simp

/-! ### What is looked up -/

/-- The part of a path spells the name of the proposal. -/
def Names (part : List Char) (p : ProposalId) : Prop :=
  ∃ text, Text.Percent.decodeText part = .ok text ∧ p.IsSpelledBy ProposalId.IsScheme text

/-- The part of a path writes the number of the participant. -/
def Numbers (part : List Char) (v : ParticipantId) : Prop :=
  ∃ text, Text.Percent.decodeText part = .ok text ∧ Text.Decimal.Writes v.toNat text.toList

/-- The request only asks for something on a route. -/
structure Request.Seeks (r : Request) (route : Route) : Prop where
  isGet : r.method = .get ∨ r.method = .head
  liesAt : route.LiesAt r.path

/-- What requests look up. -/
inductive Visit.LooksUp (v : Visit) : Lookup → Prop
  | list {page : Listing.PageRequest} (h : v.request.Seeks .list)
    (hpage : Query.AsksFor v.request.query page) : LooksUp v (.list page)
  | proposal {id : List Char} {p : ProposalId} (h : v.request.Seeks (.proposal id))
    (hp : Names id p) : LooksUp v (.proposal p)
  | preview {id : List Char} {p : ProposalId} (h : v.request.Seeks (.tally id))
    (hp : Names id p) : LooksUp v (.preview p)
  | history {id voter : List Char} {p : ProposalId} {participant : ParticipantId}
    (h : v.request.Seeks (.ballots id voter)) (hp : Names id p)
    (hv : Numbers voter participant) : LooksUp v (.history p participant)

theorem names_iff {part : List Char} {p : ProposalId} :
    (text? part).bind named? = some p ↔ Names part p := by
  simp only [Option.bind_eq_some_iff, text?, toOption_eq_some_iff, named?_eq_some_iff, Names]

theorem numbers_iff {part : List Char} {v : ParticipantId} :
    ((text? part).bind fun text => ParticipantId.read? text.toList) = some v ↔ Numbers part v := by
  simp only [Option.bind_eq_some_iff, text?, toOption_eq_some_iff,
    participant_read?_eq_some_iff, Numbers]

/-- **What is looked up for a request is what the request looks up.** -/
theorem Visit.lookup?_eq_some_iff {l : Lookup} : v.lookup? = some l ↔ v.LooksUp l := by
  constructor
  · intro h
    unfold lookup? at h
    split at h
    · rename_i hget
      have hseeks {route : Route} (hroute : Route.ofPath? v.request.path = some route) :
          v.request.Seeks route := ⟨hget, Route.ofPath?_eq_some_iff.1 hroute⟩
      split at h
      · rename_i hroute
        obtain ⟨page, hpage, rfl⟩ := Option.map_eq_some_iff.1 h
        exact .list (hseeks hroute) (Query.pageRequest?_eq_some_iff.1 hpage)
      · rename_i hroute
        obtain ⟨p, hp, rfl⟩ := Option.map_eq_some_iff.1 h
        exact .proposal (hseeks hroute) (names_iff.1 hp)
      · rename_i hroute
        obtain ⟨p, hp, rfl⟩ := Option.map_eq_some_iff.1 h
        exact .preview (hseeks hroute) (names_iff.1 hp)
      · rename_i hroute
        obtain ⟨p, hp, h⟩ := Option.bind_eq_some_iff.1 h
        obtain ⟨participant, hv, rfl⟩ := Option.map_eq_some_iff.1 h
        exact .history (hseeks hroute) (names_iff.1 hp) (numbers_iff.1 hv)
      · cases h
    · cases h
  · intro h
    cases h with
    | list h hpage =>
      rw [lookup?, if_pos h.isGet, h.liesAt.ofPath?_eq]
      exact Option.map_eq_some_iff.2 ⟨_, Query.pageRequest?_eq_some_iff.2 hpage, rfl⟩
    | proposal h hp =>
      rw [lookup?, if_pos h.isGet, h.liesAt.ofPath?_eq]
      exact Option.map_eq_some_iff.2 ⟨_, names_iff.2 hp, rfl⟩
    | preview h hp =>
      rw [lookup?, if_pos h.isGet, h.liesAt.ofPath?_eq]
      exact Option.map_eq_some_iff.2 ⟨_, names_iff.2 hp, rfl⟩
    | history h hp hv =>
      rw [lookup?, if_pos h.isGet, h.liesAt.ofPath?_eq]
      exact Option.bind_eq_some_iff.2
        ⟨_, names_iff.2 hp, Option.map_eq_some_iff.2 ⟨_, numbers_iff.2 hv, rfl⟩⟩

theorem Visit.lookup?_eq_none_iff : v.lookup? = none ↔ ∀ l, ¬ v.LooksUp l := by
  simp only [Option.eq_none_iff_forall_ne_some, ne_eq, lookup?_eq_some_iff]

end DelegatedVoting.Gateway
