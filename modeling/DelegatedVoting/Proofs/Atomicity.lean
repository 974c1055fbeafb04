import DelegatedVoting.Gateway
import DelegatedVoting.Proofs.Recovery
import DelegatedVoting.Proofs.Writes

/-!
# Calls are done as a whole or not at all

A call that is refused changes neither memory nor store, except that a new proposal keeps its place
in the order of creation when the store refuses it. A call that is accepted has made one write, and
what the write keeps is what memory holds and what is replied.

* `Session.Rejects`, `Write.Backs`: what is left behind by a call;
* `Registry.IsWritable`, `Session.isWritable_run`: what is in memory can be written and read back;
* `Session.Query`, `Session.look`: what is only looked up;
* `Session.call_is_atomic`: every call at any time of a run.
-/

namespace DelegatedVoting

open Packed

/-! ### What a write backs -/

namespace Write

variable {σ : Type}

/-- A write keeps what memory holds after a call and what is replied to it. -/
inductive Backs (s : Session σ) (after : Engine) : Session.Event → Session.Reply → Write → Prop
  | create {call : Session.Event} {fresh : ProposalId} {v : ParticipantId} {text : String}
      {record : Bytes} (hcreates : s.Creates call fresh v text)
      (hdecode : Format.proposal.decode record = .ok (s.engine.next s.now fresh v text))
      (hafter : after.slot fresh = .ok ⟨s.engine.next s.now fresh v text, .empty⟩) :
    Backs s after call (.proposal (s.engine.next s.now fresh v text)) (.proposal fresh record)
  | cast {call : Session.Event} {p : ProposalId} {action : UInt64 → Ballot.Action} {slot : Slot}
      {record : Bytes} {r : Ballot.Record} (hcasts : call.Casts p action)
      (hr : r = ⟨action slot.book.nextSeq, s.now⟩) (hopen : slot.proposal.IsOpen)
      (hdecode : Format.ballotRecord.decode record = .ok r)
      (hbefore : s.engine.slot p = .ok slot)
      (hafter : after.slot p = .ok { slot with book := slot.book.apply r })
      (hheld : r ∈ (slot.book.apply r).trail r.action.voter) :
    Backs s after call (.action r.action) (.ballot p r.action.seq record)
  | close {call : Session.Event} {p : ProposalId} {slot : Slot} {result : Tally}
      {reply : Session.Reply} {record tally : Bytes}
      (hcloses : s.Closes call p slot result reply) (hopen : slot.proposal.IsOpen)
      (hdecode : Format.proposal.decode record = .ok (slot.proposal.finalize result))
      (htally : Format.tally.decode tally = .ok result) (hbefore : s.engine.slot p = .ok slot)
      (hafter : after.slot p = .ok { slot with proposal := slot.proposal.finalize result }) :
    Backs s after call reply (.finalization p record tally)

end Write

/-! ### What is in memory can be written -/

/-- Every proposal is known under its own name, and its statement is not too long to be packed. -/
def Registry.IsWritable (r : Registry) : Prop :=
  ∀ (p : ProposalId) (slot : Slot), r.slots[p]? = some slot →
    slot.proposal.id = p ∧ slot.proposal.statement.utf8ByteSize < UInt64.size

/-- What has been read can be written. -/
theorem Registry.ReadFrom.isWritable {r : Registry} {c : Contents} (h : r.ReadFrom c) :
    r.IsWritable :=
  fun p slot hslot => ⟨h.isFiled p slot hslot, (h.slot hslot).tells.fits⟩

theorem Registry.IsWritable.enter {r : Registry} {q : Proposal} (h : r.IsWritable)
    (hfits : q.statement.utf8ByteSize < UInt64.size) : (r.burn.add q).IsWritable := by
  intro p slot hslot
  rw [getElem?_slots_enter] at hslot
  split at hslot
  · cases hslot
    exact ⟨‹_›, hfits⟩
  · exact h p slot hslot

theorem Registry.IsWritable.update {r : Registry} {p : ProposalId} {slot slot' : Slot}
    (h : r.IsWritable) (hslot : r.slots[p]? = some slot)
    (hid : slot'.proposal.id = slot.proposal.id)
    (hstatement : slot'.proposal.statement = slot.proposal.statement) :
    (r.update p slot').IsWritable := by
  intro q slot'' hslot''
  rw [getElem?_slots_update] at hslot''
  split at hslot''
  · rename_i hp
    cases hslot''
    rw [← hp, hid, hstatement]
    exact h p slot hslot
  · exact h q slot'' hslot''

namespace Session

variable {σ : Type} [Store σ] [LawfulStore σ] {s s' : Session σ} {c : Contents} {event : Event}
  {events : List Event} {answer : Except Refusal Reply} {reply : Reply} {x : Refusal}

theorem Goes.isWritable (hgoes : s.Goes event answer s') (hkeeps : LawfulStore.Keeps s.store c)
    (hfits : event.Fits) (h : s.engine.registry.IsWritable) : s'.engine.registry.IsWritable := by
  cases hgoes with
  | refused => exact h
  | burned => exact h
  | created _ fresh v text store hcreates => exact h.enter (hcreates.fits hfits)
  | cast _ p action slot store hcasts hslot => exact h.update hslot rfl rfl
  | closed _ p slot result reply store hcloses hslot => exact h.update hslot rfl rfl
  | clock => exact h
  | refuseWrites => exact h
  | restarted rules engine hrecover =>
    exact ((Recovery.recover_eq_ok_iff hkeeps).1 hrecover).2.isWritable

/-- **What is in memory can be written at any time of a run.** -/
theorem isWritable_run (hkeeps : LawfulStore.Keeps s.store c) (h : s.engine.registry.IsWritable)
    (hfits : ∀ event ∈ events, event.Fits) : (s.run events).engine.registry.IsWritable := by
  induction events generalizing s c with
  | nil => exact h
  | cons event events ih =>
    have hevent := hfits event (by simp)
    obtain ⟨c', hkeeps', -⟩ := step_moves hkeeps hevent
    exact ih hkeeps' ((s.respond_goes event).isWritable hkeeps hevent h)
      fun event' hevent' => hfits event' (by simp [hevent'])

/-! ### What a call leaves behind -/

/-- The event asks the engine for a change. -/
def Event.IsRequest : Event → Prop
  | .clock _ => False
  | .refuseWrites _ => False
  | .restart _ => False
  | _ => True

omit [Store σ] [LawfulStore σ] in
theorem Creates.isRequest {fresh : ProposalId} {v : ParticipantId} {text : String}
    (h : s.Creates event fresh v text) : event.IsRequest := by
  rcases h with ⟨rfl, -⟩ | rfl <;> trivial

theorem Event.Casts.isRequest {p : ProposalId} {action : UInt64 → Ballot.Action}
    (h : event.Casts p action) : event.IsRequest := by
  rcases h with ⟨v, isYes, rfl, -⟩ | ⟨v, d, rfl, -, -⟩ <;> trivial

omit [Store σ] [LawfulStore σ] in
theorem Closes.isRequest {p : ProposalId} {slot : Slot} {result : Tally}
    (h : s.Closes event p slot result reply) : event.IsRequest := by
  rcases h with ⟨rfl, -⟩ | ⟨v, rfl, -⟩ <;> trivial

/-- What a refused call leaves behind: nothing has changed, except that the place of a new proposal
is taken if the store has refused it. -/
structure Rejects (s : Session σ) (call : Event) (x : Refusal) (s' : Session σ) : Prop where
  store_eq : s'.store = s.store
  now_eq : s'.now = s.now
  rules_eq : s'.engine.rules = s.engine.rules
  slots_eq : s'.engine.registry.slots = s.engine.registry.slots
  order_eq : s'.engine.registry.order = s.engine.registry.order
  nextSequence_burned : call.fresh?.isSome → (∃ y, x = .store y) →
    s'.engine.registry.nextSequence = s.engine.registry.nextSequence + 1
  nextSequence_eq : (call.fresh? = none ∨ ∀ y, x ≠ .store y) →
    s'.engine.registry.nextSequence = s.engine.registry.nextSequence

omit [Store σ] [LawfulStore σ] in
theorem Creates.fresh?_eq {fresh : ProposalId} {v : ParticipantId} {text : String}
    (h : s.Creates event fresh v text) : event.fresh? = some fresh := by
  rcases h with ⟨rfl, -⟩ | rfl <;> rfl

/-- **A refused call changes nothing** but the place of the next proposal. -/
theorem Goes.rejects (hgoes : s.Goes event (.error x) s') : s.Rejects event x s' := by
  cases hgoes with
  | refused _ _ hx =>
    refine ⟨rfl, rfl, rfl, rfl, rfl, fun hfresh ⟨y, hy⟩ => ?_, fun _ => rfl⟩
    rw [hx y hy] at hfresh
    cases hfresh
  | burned _ fresh v text y hcreates =>
    refine ⟨rfl, rfl, rfl, rfl, rfl, fun _ _ => rfl, ?_⟩
    rintro (hnone | hother)
    · rw [hcreates.fresh?_eq] at hnone
      cases hnone
    · exact absurd rfl (hother y)

/-- **An accepted call has made one write,** which backs the reply, and has changed what is known
about one proposal. -/
theorem Goes.exists_write (hgoes : s.Goes event (.ok reply) s') (hcall : event.IsRequest)
    (hfits : event.Fits) (h : s.engine.registry.IsWritable) :
    ∃ w : Write, w.perform s.store = .ok s'.store ∧ w.Backs s s'.engine event reply ∧
      s'.now = s.now ∧ s'.engine.rules = s.engine.rules ∧
        ∀ p ≠ w.subject, s'.engine.slot p = s.engine.slot p := by
  cases hgoes with
  | created _ fresh v text store hcreates hput =>
    refine ⟨.proposal fresh (Format.proposal.write (s.engine.next s.now fresh v text)), hput,
      .create hcreates ?_ ?_, rfl, rfl, fun p hp => ?_⟩
    · exact (Format.proposal_roundTrips (hcreates.fits hfits)).decode
    · exact s.engine.slot_enter_self (s.engine.next s.now fresh v text)
    · exact s.engine.slot_enter_of_ne hp
  | cast _ p action slot store hcasts hslot hopen hput =>
    let r : Ballot.Record := ⟨action slot.book.nextSeq, s.now⟩
    have hheld : r ∈ (slot.book.apply r).trail r.action.voter := by
      rw [Ballot.Book.trail_apply, if_pos rfl]
      exact Ballot.Book.mem_enter.2 (.inl rfl)
    have hput : Store.putBallot p r.action.seq (Format.ballotRecord.write r) s.store =
        .ok store := by
      rw [hcasts.seq_eq]
      exact hput
    refine ⟨.ballot p r.action.seq (Format.ballotRecord.write r), hput, ?_, rfl, rfl,
      fun q hq => s.engine.slot_update_of_ne _ hq⟩
    exact .cast hcasts rfl hopen (Format.ballotRecord_roundTrips r).decode
      (Engine.slot_eq_ok.2 hslot) (s.engine.slot_update_self p _) hheld
  | closed _ p slot result reply store hcloses hslot hopen hput =>
    obtain ⟨hid, hstatement⟩ := h p slot hslot
    rw [hid] at hput
    have hstatement : (slot.proposal.finalize result).statement.utf8ByteSize < _ := hstatement
    refine ⟨.finalization p (Format.proposal.write (slot.proposal.finalize result))
      (Format.tally.write result), hput, ?_, rfl, rfl,
      fun q hq => s.engine.slot_update_of_ne _ hq⟩
    exact .close hcloses hopen (Format.proposal_roundTrips hstatement).decode
      (Format.tally_roundTrips result).decode (Engine.slot_eq_ok.2 hslot)
      (s.engine.slot_update_self p _)
  | clock => exact hcall.elim
  | refuseWrites => exact hcall.elim
  | restarted => exact hcall.elim

/-! ### What is only looked up -/

/-- What can be looked up. -/
inductive Query
  | list
  | count
  | openCount
  | proposal (p : ProposalId)
  | preview (p : ProposalId)
  | resolve (p : ProposalId)
  | current (p : ProposalId) (v : ParticipantId)
  | history (p : ProposalId) (v : ParticipantId)
  | actors (p : ProposalId)

/-- What is shown. -/
inductive Shown
  | proposals (proposals : List Proposal)
  | number (n : Nat)
  | proposal (proposal : Proposal)
  | preview (preview : Preview)
  | resolution (resolution : Resolution)
  | action (action : Option Ballot.Action)
  | records (records : List Ballot.Record)
  | participants (participants : List ParticipantId)

/-- What is shown of something that is looked up, and the session after it. -/
def look (s : Session σ) : Query → Except Refusal Shown × Session σ
  | .list => (.ok (.proposals s.engine.list), s)
  | .count => (.ok (.number s.engine.count), s)
  | .openCount => (.ok (.number s.engine.openCount), s)
  | .proposal p => ((s.engine.proposal p).map .proposal, s)
  | .preview p => ((s.engine.preview p).map .preview, s)
  | .resolve p => ((s.engine.resolve p).map .resolution, s)
  | .current p v => ((s.engine.current p v).map .action, s)
  | .history p v => ((s.engine.history p v).map .records, s)
  | .actors p => ((s.engine.actors p).map .participants, s)

end Session

namespace Gateway

variable {σ : Type} [Store σ]

/-- The call only looks something up. -/
def Call.IsQuery : Call → Prop
  | .list _ => True
  | .proposal _ => True
  | .preview _ => True
  | .history .. => True
  | .health => True
  | .metrics => True
  | _ => False

omit [Store σ] in
theorem look_eq (g : Gateway) (e : Engine) (s : σ) (key : Option ProposalId)
    (read : Except Rejection Json) :
    (g.look e s key read).engine = e ∧ (g.look e s key read).store = s := by
  unfold look
  split <;> exact ⟨rfl, rfl⟩

/-- A gateway that looks something up changes neither engine nor store. -/
theorem perform_eq_of_isQuery (g : Gateway) (e : Engine) (s : σ) (m : Moment) {call : Call}
    (h : call.IsQuery) :
    (g.perform e s m call).engine = e ∧ (g.perform e s m call).store = s := by
  cases call with
  | list => exact look_eq ..
  | proposal => exact look_eq ..
  | preview => exact look_eq ..
  | history => exact look_eq ..
  | health => exact ⟨rfl, rfl⟩
  | metrics => exact ⟨rfl, rfl⟩
  | propose => exact h.elim
  | vote => exact h.elim
  | delegate => exact h.elim
  | finalize => exact h.elim

end Gateway

/-! ### Every call at any time of a run -/

namespace Session

/-- **A call is done as a whole or not at all,** at any time of a run and whether or not the store
refuses writes. What is only looked up, in the engine or through a gateway, changes nothing. -/
theorem call_is_atomic {rules : Rules} {store : MemoryStore} {now : Timestamp} {events : List Event}
    {call : Event} (hfits : ∀ event ∈ events, event.Fits) (hcall : call.IsRequest)
    (hcallFits : call.Fits) :
    let s := (start rules store now).run events
    let s' := s.step call
    (∀ x, (s.respond call).1 = .error x → s.Rejects call x s') ∧
      (∀ reply, (s.respond call).1 = .ok reply →
        s.store.failing = false ∧ s'.store.writes = s.store.writes + 1 ∧
          ∃ w : Write, w.perform s.store = .ok s'.store ∧ w.Backs s s'.engine call reply ∧
            s'.now = s.now ∧ s'.engine.rules = s.engine.rules ∧
              ∀ p ≠ w.subject, s'.engine.slot p = s.engine.slot p) ∧
      (∀ query, (s.look query).2 = s) ∧
      ∀ (g : Gateway) (m : Gateway.Moment) (query : Gateway.Call), query.IsQuery →
        (g.perform s.engine s.store m query).engine = s.engine ∧
          (g.perform s.engine s.store m query).store = s.store := by
  intro s s'
  have hwritable : s.engine.registry.IsWritable :=
    isWritable_run (c := store.contents) rfl nofun hfits
  have hgoes := s.respond_goes call
  refine ⟨fun x hx => ?_, fun reply hreply => ?_, fun query => ?_,
    fun g m query hquery => g.perform_eq_of_isQuery s.engine s.store m hquery⟩
  · rw [hx] at hgoes
    exact hgoes.rejects
  · rw [hreply] at hgoes
    obtain ⟨w, hperform, hw⟩ := hgoes.exists_write hcall hcallFits hwritable
    obtain ⟨hfailing, hwrites⟩ := Write.writes_eq_of_perform hperform
    exact ⟨hfailing, hwrites, w, hperform, hw⟩
  · cases query <;> rfl

/-- A finalization that is written, and then a proposal that the store refuses. -/
theorem call_is_atomic_of_refused_write :
    let p : ProposalId := ⟨.replicate 16 1, rfl⟩
    let q : ProposalId := ⟨.replicate 16 2, rfl⟩
    let s := (start {} MemoryStore.empty 0).run [.create p 1 "tea", .vote p 2 true]
    let s' := s.run [.finalize p 3, .refuseWrites true]
    (∃ w : Write, w.perform s.store = .ok (s.step (.finalize p 3)).store ∧
      w.Backs s (s.step (.finalize p 3)).engine (.finalize p 3)
        (.tally ⟨p, 1, 0, 0, .passed, 3, 0⟩)) ∧
      s'.Rejects (.create q 1 "cake") (.store (.backend "injected write failure"))
        (s'.step (.create q 1 "cake")) ∧
      (s'.step (.create q 1 "cake")).engine.registry.nextSequence = 2 := by
  intro p q s s'
  let before : List Event := [.create p 1 "tea", .vote p 2 true]
  have hbefore : ∀ event ∈ before ++ [.finalize p 3, .refuseWrites true], event.Fits := by
    simp [before, Event.Fits]
    decide
  have hdone : (s.respond (.finalize p 3)).1 = .ok (.tally ⟨p, 1, 0, 0, .passed, 3, 0⟩) := by
    decide +kernel
  have hrefused : (s'.respond (.create q 1 "cake")).1 =
      .error (.store (.backend "injected write failure")) := by decide +kernel
  have hfinalize := @call_is_atomic {} .empty 0 before (.finalize p 3)
    (fun event hevent => hbefore event (List.mem_append_left _ hevent)) trivial trivial
  have hcreate := @call_is_atomic {} .empty 0 _ (.create q 1 "cake") hbefore trivial
    (show "cake".utf8ByteSize < UInt64.size by decide)
  obtain ⟨-, -, w, hperform, hbacks, -⟩ := hfinalize.2.1 _ hdone
  have hrejects := hcreate.1 _ hrefused
  refine ⟨⟨w, hperform, hbacks⟩, hrejects, ?_⟩
  exact (hrejects.nextSequence_burned rfl ⟨_, rfl⟩).trans (by decide +kernel)

end Session

end DelegatedVoting
