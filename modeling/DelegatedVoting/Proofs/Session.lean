import DelegatedVoting.Engine.Recovery
import DelegatedVoting.Proofs.Contents

/-!
# Sessions

An engine at work over a store, and what can happen to it one thing after the other: calls by
anybody, a clock that is set, a store that refuses writes for a while, and new engines that are
recovered from the store.

* `Session`, `Session.start`: an engine over a store, at a time;
* `Session.Event`, `Session.Reply`: what can happen, and what is replied;
* `Session.respond`, `step`, `run`: the reply to an event, and the session after events;
* `Session.generated`: the names that have been generated for proposals;
* `Session.numbersTaken`: how many numbers of proposals and ballots have been taken;
* `Session.generated_sublist`, `numbersTaken_le_length`: bounds on both;
* `Session.HasRoom`, `Session.Throughout`: no counter is exhausted, at any time of a run.
-/

namespace DelegatedVoting

open Recovery

/-- An engine over a store, at a time. -/
structure Session (σ : Type) where
  engine : Engine
  store : σ
  now : Timestamp

namespace Session

/-- What can happen to an engine over a store. The name of a new proposal is given with the event;
it counts as generated only if the call gets so far as to name a proposal. -/
inductive Event
  | propose (fresh : ProposalId) (proposer : ParticipantId) (statement : String)
  | create (fresh : ProposalId) (proposer : ParticipantId) (statement : String)
  | vote (p : ProposalId) (v : ParticipantId) (isYes : Bool)
  | delegate (p : ProposalId) (v delegate : ParticipantId)
  | finalize (p : ProposalId) (v : ParticipantId)
  | commit (p : ProposalId) (result : Tally)
  /-- The clock is set, forward or back. -/
  | clock (now : Timestamp)
  /-- The store refuses writes from now on, or accepts them again. -/
  | refuseWrites (refuse : Bool)
  /-- A new engine is recovered from the store, and takes the place of the old one. -/
  | restart (rules : Rules)
  deriving DecidableEq

namespace Event

/-- A text is shorter than `2 ^ 64` bytes, as every text in memory is. The length of a proposed text
is checked by the engine. -/
def Fits : Event → Prop
  | .create _ _ statement => statement.utf8ByteSize < UInt64.size
  | _ => True

/-- A result is committed to the proposal that it names. -/
def IsNamed : Event → Prop
  | .commit p result => result.proposal = p
  | _ => True

/-- The name that is given with the event. -/
def fresh? : Event → Option ProposalId
  | .propose fresh _ _ => some fresh
  | .create fresh _ _ => some fresh
  | _ => none

/-- The event would close the proposal. -/
def Closes (p : ProposalId) : Event → Prop
  | .finalize q _ => q = p
  | .commit q _ => q = p
  | _ => False

instance (p : ProposalId) (event : Event) : Decidable (event.Closes p) := by
  unfold Closes; split <;> infer_instance

/-- The event is a ballot. -/
def IsBallot : Event → Prop
  | .vote .. => True
  | .delegate .. => True
  | _ => False

instance (event : Event) : Decidable event.IsBallot := by
  unfold IsBallot; split <;> infer_instance

/-- A new engine is to be recovered. -/
def IsRestart : Event → Prop
  | .restart _ => True
  | _ => False

instance (event : Event) : Decidable event.IsRestart := by
  unfold IsRestart; split <;> infer_instance

end Event

/-- What is replied to an event. -/
inductive Reply
  | proposal (proposal : Proposal)
  | action (action : Ballot.Action)
  | tally (tally : Tally)
  | done
  deriving DecidableEq

variable {σ α : Type}

/-- A new engine over a store. -/
def start (rules : Rules) (store : σ) (now : Timestamp) : Session σ := ⟨.new rules, store, now⟩

/-- The session after a call. -/
def after (s : Session σ) (reply : α → Reply) (call : Step σ α) :
    Except Refusal Reply × Session σ :=
  (call.answer.map reply, ⟨call.engine, call.store, s.now⟩)

variable [Store σ] [LawfulStore σ]

/-- The reply to an event, and the session after it. An engine that cannot be recovered leaves the
old one in its place. -/
def respond (s : Session σ) : Event → Except Refusal Reply × Session σ
  | .propose fresh v text => s.after .proposal (s.engine.propose s.store s.now fresh v text)
  | .create fresh v text => s.after .proposal (s.engine.create s.store s.now fresh v text)
  | .vote p v isYes => s.after .action (s.engine.vote s.store s.now p v isYes)
  | .delegate p v delegate => s.after .action (s.engine.delegate s.store s.now p v delegate)
  | .finalize p v => s.after .tally (s.engine.finalize s.store s.now p v)
  | .commit p result => s.after .proposal (s.engine.commit s.store p result)
  | .clock now => (.ok .done, { s with now })
  | .refuseWrites refuse =>
    (.ok .done, { s with store := LawfulStore.refuseWrites refuse s.store })
  | .restart rules =>
    match Engine.recover rules s.store with
    | .ok engine => (.ok .done, { s with engine })
    | .error r => (.error r, s)

/-- The session after an event. -/
def step (s : Session σ) (event : Event) : Session σ := (s.respond event).2

/-- Whether an event is accepted. -/
def Accepts (s : Session σ) (event : Event) : Prop := (s.respond event).1.isOk

instance (s : Session σ) (event : Event) : Decidable (s.Accepts event) :=
  inferInstanceAs (Decidable (_ = _))

/-- The session after events. -/
def run (s : Session σ) (events : List Event) : Session σ := events.foldl step s

@[simp] theorem run_nil (s : Session σ) : s.run [] = s := rfl

@[simp] theorem run_cons (s : Session σ) (event : Event) (events : List Event) :
    s.run (event :: events) = (s.step event).run events := rfl

@[simp] theorem run_append (s : Session σ) (events more : List Event) :
    s.run (events ++ more) = (s.run events).run more := List.foldl_append

/-! ### What a run uses up -/

/-- The name that an event has generated for a proposal. A call with an unacceptable statement
generates none. -/
def generates (s : Session σ) : Event → List ProposalId
  | .propose fresh _ text =>
    if Engine.statementFault? s.engine.rules text = none then [fresh] else []
  | .create fresh _ _ => [fresh]
  | _ => []

/-- The names that the events of a run generate, in their order. -/
def generated : Session σ → List Event → List ProposalId
  | _, [] => []
  | s, event :: events => s.generates event ++ (s.step event).generated events

/-- How many numbers an event takes: one for a proposal, even if the store refuses it, and one for
an accepted ballot. -/
def takes (s : Session σ) (event : Event) : Nat :=
  (s.generates event).length + if event.IsBallot ∧ s.Accepts event then 1 else 0

/-- How many numbers the events of a run take. -/
def numbersTaken : Session σ → List Event → Nat
  | _, [] => 0
  | s, event :: events => s.takes event + (s.step event).numbersTaken events

/-- No counter is exhausted. -/
def HasRoom (s : Session σ) : Prop :=
  HasSuccessor s.engine.registry.nextSequence ∧
    ∀ (p : ProposalId) (slot : Slot), s.engine.registry.slots[p]? = some slot →
      HasSuccessor slot.book.nextSeq

/-- Something holds whenever an event of a run is about to happen. -/
def Throughout (P : Session σ → Prop) : Session σ → List Event → Prop
  | _, [] => True
  | s, event :: events => P s ∧ Throughout P (s.step event) events

/-- How many of the events of a run that would close a proposal are accepted. -/
def closings (p : ProposalId) : Session σ → List Event → Nat
  | _, [] => 0
  | s, event :: events =>
    (if event.Closes p ∧ s.Accepts event then 1 else 0) + closings p (s.step event) events

theorem generated_append (s : Session σ) (events more : List Event) :
    s.generated (events ++ more) = s.generated events ++ (s.run events).generated more := by
  induction events generalizing s with
  | nil => rfl
  | cons event events ih => simp [generated, ih]

theorem numbersTaken_append (s : Session σ) (events more : List Event) :
    s.numbersTaken (events ++ more) = s.numbersTaken events + (s.run events).numbersTaken more := by
  induction events generalizing s with
  | nil => exact (Nat.zero_add _).symm
  | cons event events ih => simp [numbersTaken, ih, Nat.add_assoc]

theorem throughout_append {P : Session σ → Prop} (s : Session σ) (events more : List Event) :
    Throughout P s (events ++ more) ↔ Throughout P s events ∧ Throughout P (s.run events) more := by
  induction events generalizing s with
  | nil => simp [Throughout]
  | cons event events ih => simp [Throughout, ih, and_assoc]

/-! ### Bounds on what a run uses up -/

omit [Store σ] [LawfulStore σ] in
theorem generates_sublist (s : Session σ) (event : Event) :
    (s.generates event).Sublist event.fresh?.toList := by
  cases event with
  | propose fresh v text =>
    show (if Engine.statementFault? s.engine.rules text = none then [fresh] else []).Sublist _
    split
    · exact .refl _
    · exact List.nil_sublist _
  | create => exact .refl _
  | _ => exact List.nil_sublist _

/-- Names are generated only where they are given. -/
theorem generated_sublist (s : Session σ) (events : List Event) :
    (s.generated events).Sublist (events.filterMap Event.fresh?) := by
  induction events generalizing s with
  | nil => exact .slnil
  | cons event events ih =>
    have hsplit : (event :: events).filterMap Event.fresh? =
        event.fresh?.toList ++ events.filterMap Event.fresh? := by
      rw [List.filterMap_cons]
      cases event.fresh? <;> rfl
    rw [generated, hsplit]
    exact (generates_sublist s event).append (ih _)

theorem takes_le_one (s : Session σ) (event : Event) : s.takes event ≤ 1 := by
  have hlength := (generates_sublist s event).length_le
  unfold takes
  by_cases hballot : event.IsBallot
  · have hnone : event.fresh? = none := by
      cases event <;> first | rfl | exact hballot.elim
    rw [hnone] at hlength
    replace hlength : (s.generates event).length ≤ 0 := hlength
    split <;> omega
  · rw [if_neg fun h => hballot h.1]
    exact hlength.trans Option.length_toList_le

/-- An event takes at most one number. -/
theorem numbersTaken_le_length (s : Session σ) (events : List Event) :
    s.numbersTaken events ≤ events.length := by
  induction events generalizing s with
  | nil => exact Nat.le_refl _
  | cons event events ih =>
    have := s.takes_le_one event
    have := ih (s.step event)
    rw [numbersTaken, List.length_cons]
    omega

end Session

end DelegatedVoting
