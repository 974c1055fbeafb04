import DelegatedVoting.Proofs.Session
import DelegatedVoting.Proofs.Writes

/-!
# Deeds

A deed is a call about one proposal that exists: a ballot, or the closing of the proposal. What it
comes to is decided by the rules, the time and what is known about that proposal, before the store
is told anything. If it is not refused there, the store is told to do one write about the proposal.

* `Session.Deed`, `Deed.event`, `Event.deed?`: the deeds, and the events that ask for them;
* `Session.Plan`, `Deed.plan`: the write of a deed, what is known after it, and the reply;
* `Session.carryOut`: a plan is carried out;
* `Session.respond_deed`: a session responds to a deed by carrying out its plan.
-/

namespace DelegatedVoting

open Packed

namespace Session

/-! ### Deeds -/

/-- What can be done on a proposal. -/
inductive Deed
  | vote (v : ParticipantId) (isYes : Bool)
  | delegate (v delegate : ParticipantId)
  | finalize (v : ParticipantId)
  | commit (result : Tally)
  deriving DecidableEq

/-- The event that asks for a deed on a proposal. -/
def Deed.event (p : ProposalId) : Deed → Event
  | .vote v isYes => .vote p v isYes
  | .delegate v d => .delegate p v d
  | .finalize v => .finalize p v
  | .commit result => .commit p result

/-- The deed on a proposal that an event asks for, if it asks for one. -/
def Event.deed? (p : ProposalId) : Event → Option Deed
  | .vote q v isYes => if q = p then some (.vote v isYes) else none
  | .delegate q v d => if q = p then some (.delegate v d) else none
  | .finalize q v => if q = p then some (.finalize v) else none
  | .commit q result => if q = p then some (.commit result) else none
  | _ => none

variable {p q : ProposalId} {event : Event} {d : Deed}

theorem deed?_eq_some_iff : event.deed? p = some d ↔ event = d.event p := by
  constructor
  · intro h
    cases event <;> simp only [Event.deed?, reduceCtorEq, Option.ite_none_right_eq_some,
      Option.some.injEq] at h <;> obtain ⟨rfl, rfl⟩ := h <;> rfl
  · rintro rfl
    cases d <;> exact if_pos rfl

/-- An event that is no deed on a proposal casts no ballot on it. -/
theorem Event.Casts.ne_of_deed? {action : UInt64 → Ballot.Action} (h : event.Casts p action)
    (hdeed : event.deed? q = none) : q ≠ p := by
  rintro rfl
  rcases h with ⟨v, isYes, rfl, -⟩ | ⟨v, d, rfl, -, -⟩ <;>
    simp [Event.deed?] at hdeed

/-- An event that is no deed on a proposal does not close it. -/
theorem Closes.ne_of_deed? {σ : Type} {s : Session σ} {slot : Slot} {result : Tally}
    {reply : Reply} (h : s.Closes event p slot result reply) (hdeed : event.deed? q = none) :
    q ≠ p := by
  rintro rfl
  rcases h with ⟨rfl, -⟩ | ⟨v, rfl, -⟩ <;> simp [Event.deed?] at hdeed

/-! ### Plans -/

/-- What a deed comes to, if the store does the write. -/
structure Plan where
  write : Write
  slot : Slot
  reply : Reply

/-- The plan of a ballot, under the next number. -/
def castPlan (p : ProposalId) (now : Timestamp) (action : UInt64 → Ballot.Action) (slot : Slot) :
    Except Refusal Plan :=
  if slot.proposal.IsOpen then
    let r : Ballot.Record := ⟨action slot.book.nextSeq, now⟩
    .ok ⟨.ballot p slot.book.nextSeq (Format.ballotRecord.write r),
      { slot with book := slot.book.apply r }, .action r.action⟩
  else .error (.ballotsClosed p)

/-- The plan of a closing. -/
def closePlan (p : ProposalId) (slot : Slot) (result : Tally) (reply : Reply) : Plan :=
  let proposal := slot.proposal.finalize result
  ⟨.finalization p (Format.proposal.write proposal) (Format.tally.write result),
    { slot with proposal }, reply⟩

/-- The plan of a deed on a proposal, from what has been found out about the proposal. -/
def Deed.plan (p : ProposalId) (rules : Rules) (now : Timestamp) (found : Except Refusal Slot) :
    Deed → Except Refusal Plan
  | .vote v isYes => found >>= castPlan p now (.vote v isYes)
  | .delegate v d =>
    -- this is found out before the proposal is looked up
    if v = d then .error (.selfDelegation v) else found >>= castPlan p now (.delegation v d)
  | .finalize v => do
    let slot ← found
    if slot.proposal.IsOpen then
      if Engine.MayFinalize rules slot.proposal v then
        .ok (closePlan p slot (slot.tally p v now) (.tally (slot.tally p v now)))
      else .error (.notProposer slot.proposal.proposer)
    else .error (.alreadyFinalized p)
  | .commit result => do
    let slot ← found
    if slot.proposal.IsOpen then
      .ok (closePlan p slot result (.proposal (slot.proposal.finalize result)))
    else .error (.alreadyFinalized p)

section Plan

variable {rules : Rules} {now : Timestamp} {found : Except Refusal Slot} {plan : Plan}

theorem castPlan_eq_ok {action : UInt64 → Ballot.Action} {slot : Slot}
    (h : castPlan p now action slot = .ok plan) :
    plan.write.subject = p ∧ plan.slot.proposal.id = slot.proposal.id := by
  unfold castPlan at h
  split at h
  · cases h
    exact ⟨rfl, rfl⟩
  · cases h

/-- **A plan is about a proposal that has been found,** and does not change its name. -/
theorem Deed.plan_eq_ok (h : d.plan p rules now found = .ok plan) :
    plan.write.subject = p ∧
      ∃ slot, found = .ok slot ∧ plan.slot.proposal.id = slot.proposal.id := by
  cases d with
  | vote v isYes =>
    obtain ⟨slot, hslot, hplan⟩ := bind_eq_ok_iff.1 h
    obtain ⟨hsubject, hid⟩ := castPlan_eq_ok hplan
    exact ⟨hsubject, slot, hslot, hid⟩
  | delegate v d =>
    rw [Deed.plan] at h
    split at h
    · cases h
    · obtain ⟨slot, hslot, hplan⟩ := bind_eq_ok_iff.1 h
      obtain ⟨hsubject, hid⟩ := castPlan_eq_ok hplan
      exact ⟨hsubject, slot, hslot, hid⟩
  | finalize v =>
    obtain ⟨slot, hslot, hplan⟩ := bind_eq_ok_iff.1 h
    split at hplan
    · split at hplan
      · cases hplan
        exact ⟨rfl, slot, hslot, rfl⟩
      · cases hplan
    · cases hplan
  | commit result =>
    obtain ⟨slot, hslot, hplan⟩ := bind_eq_ok_iff.1 h
    split at hplan
    · cases hplan
      exact ⟨rfl, slot, hslot, rfl⟩
    · cases hplan

end Plan

/-! ### Plans are carried out -/

variable {σ : Type} [Store σ]

/-- Carry out a plan: memory follows the store. -/
def carryOut (s : Session σ) (p : ProposalId) :
    Except Refusal Plan → Except Refusal Reply × Session σ
  | .error x => (.error x, s)
  | .ok plan =>
    match plan.write.perform s.store with
    | .error x => (.error (.store x), s)
    | .ok store =>
      (.ok plan.reply,
        ⟨{ s.engine with registry := s.engine.registry.update p plan.slot }, store, s.now⟩)

variable {s : Session σ} {plan : Plan}

theorem carryOut_of_error {x : StoreError} (h : plan.write.perform s.store = .error x) :
    s.carryOut p (.ok plan) = (.error (.store x), s) := by
  rw [carryOut, h]

theorem carryOut_of_ok {store : σ} (h : plan.write.perform s.store = .ok store) :
    s.carryOut p (.ok plan) = (.ok plan.reply,
      ⟨{ s.engine with registry := s.engine.registry.update p plan.slot }, store, s.now⟩) := by
  rw [carryOut, h]

theorem after_accept (s : Session σ) (p : ProposalId) (action : UInt64 → Ballot.Action) :
    s.after .action (s.engine.accept s.store s.now p action) =
      s.carryOut p (s.engine.slot p >>= castPlan p s.now action) := by
  have hspec := s.engine.accept_spec s.store s.now p action
  generalize s.engine.accept s.store s.now p action = call at hspec ⊢
  cases hspec with
  | notFound hslot =>
    rw [Engine.slot_eq_error hslot]
    rfl
  | closed slot hslot hclosed =>
    rw [Engine.slot_eq_ok.2 hslot, ok_bind, castPlan, if_neg hclosed]
    rfl
  | store slot x hslot hopen hput =>
    rw [Engine.slot_eq_ok.2 hslot, ok_bind, castPlan, if_pos hopen]
    exact Eq.symm (carryOut_of_error hput)
  | done slot store hslot hopen hput =>
    rw [Engine.slot_eq_ok.2 hslot, ok_bind, castPlan, if_pos hopen]
    exact Eq.symm (carryOut_of_ok hput)

variable [LawfulStore σ]

/-- **A session responds to a deed by carrying out its plan,** if the proposal is known under its
own name. -/
theorem respond_deed (hid : ∀ slot, s.engine.slot p = .ok slot → slot.proposal.id = p) (d : Deed) :
    s.respond (d.event p) =
      s.carryOut p (d.plan p s.engine.rules s.now (s.engine.slot p)) := by
  cases d with
  | vote v isYes => exact s.after_accept p (.vote v isYes)
  | delegate v d =>
    show s.after .action (s.engine.delegate s.store s.now p v d) = _
    rw [Engine.delegate, Deed.plan]
    split
    · rfl
    · exact s.after_accept p (.delegation v d)
  | finalize v =>
    show s.after .tally (s.engine.finalize s.store s.now p v) = _
    have hspec := s.engine.finalize_spec s.store s.now p v
    generalize s.engine.finalize s.store s.now p v = call at hspec ⊢
    cases hspec with
    | notFound hslot =>
      rw [Engine.slot_eq_error hslot]
      rfl
    | closed slot hslot hclosed =>
      rw [Engine.slot_eq_ok.2 hslot, Deed.plan, ok_bind, if_neg hclosed]
      rfl
    | notProposer slot hslot hopen hmay =>
      rw [Engine.slot_eq_ok.2 hslot, Deed.plan, ok_bind, if_pos hopen, if_neg hmay]
      rfl
    | store slot x hslot hopen hmay hput =>
      rw [hid slot (Engine.slot_eq_ok.2 hslot)] at hput
      rw [Engine.slot_eq_ok.2 hslot, Deed.plan, ok_bind, if_pos hopen, if_pos hmay]
      exact Eq.symm (carryOut_of_error hput)
    | done slot store hslot hopen hmay hput =>
      rw [hid slot (Engine.slot_eq_ok.2 hslot)] at hput
      rw [Engine.slot_eq_ok.2 hslot, Deed.plan, ok_bind, if_pos hopen, if_pos hmay]
      exact Eq.symm (carryOut_of_ok hput)
  | commit result =>
    show s.after .proposal (s.engine.commit s.store p result) = _
    have hspec := s.engine.commit_spec s.store p result
    generalize s.engine.commit s.store p result = call at hspec ⊢
    cases hspec with
    | notFound hslot =>
      rw [Engine.slot_eq_error hslot]
      rfl
    | closed slot hslot hclosed =>
      rw [Engine.slot_eq_ok.2 hslot, Deed.plan, ok_bind, if_neg hclosed,
        hid slot (Engine.slot_eq_ok.2 hslot)]
      rfl
    | store slot x hslot hopen hput =>
      rw [hid slot (Engine.slot_eq_ok.2 hslot)] at hput
      rw [Engine.slot_eq_ok.2 hslot, Deed.plan, ok_bind, if_pos hopen]
      exact Eq.symm (carryOut_of_error hput)
    | done slot store hslot hopen hput =>
      rw [hid slot (Engine.slot_eq_ok.2 hslot)] at hput
      rw [Engine.slot_eq_ok.2 hslot, Deed.plan, ok_bind, if_pos hopen]
      exact Eq.symm (carryOut_of_ok hput)

end Session

end DelegatedVoting
