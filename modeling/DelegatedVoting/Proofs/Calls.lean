import DelegatedVoting.Engine

/-!
# How a call can go

A call is refused for one of a few reasons, in a fixed order, and then it changes nothing, except
that a new proposal takes its place in the order of creation even if the store refuses it. Otherwise
the store has accepted one write, and memory follows it.

* `Registry.burn`, `Slot.tally`, `Engine.next`: what a call makes;
* `Engine.CreateSpec`, `AcceptSpec`, `CommitSpec`, `FinalizeSpec`: how a call can go, with what is
  known in each case;
* `Engine.create_spec`, `accept_spec`, `commit_spec`, `finalize_spec`: each call goes in one of
  these ways.
-/

namespace DelegatedVoting

open Packed

/-- The place of the next proposal has been taken. -/
def Registry.burn (r : Registry) : Registry := { r with nextSequence := r.nextSequence + 1 }

/-- The result that is counted from the ballots of a proposal. -/
def Slot.tally (slot : Slot) (p : ProposalId) (v : ParticipantId) (now : Timestamp) : Tally :=
  Tally.ofCounts p (.ofResolution slot.book.resolve) v now

namespace Engine

variable {σ : Type} [Store σ]

omit [Store σ] in
/-- The slot that has been found. -/
theorem slot_eq_ok {e : Engine} {p : ProposalId} {slot : Slot} :
    e.slot p = .ok slot ↔ e.registry.slots[p]? = some slot := by
  unfold Engine.slot
  cases e.registry.slots[p]? with
  | none => simp
  | some slot' => simp

omit [Store σ] in
theorem slot_eq_error {e : Engine} {p : ProposalId} (h : e.registry.slots[p]? = none) :
    e.slot p = .error (.notFound p) := by
  unfold Engine.slot
  rw [h]

/-- The proposal that is created next. -/
def next (e : Engine) (now : Timestamp) (fresh : ProposalId) (proposer : ParticipantId)
    (statement : String) : Proposal :=
  ⟨fresh, e.registry.nextSequence, proposer, statement, .open, now, none⟩

/-- How the creation of a proposal can go. -/
inductive CreateSpec (e : Engine) (s : σ) (p : Proposal) : Step σ Proposal → Prop
  | store (x : StoreError) (hput : Store.putProposal p.id (Format.proposal.write p) s = .error x) :
    CreateSpec e s p ⟨.error (.store x), { e with registry := e.registry.burn }, s⟩
  | done (s' : σ) (hput : Store.putProposal p.id (Format.proposal.write p) s = .ok s') :
    CreateSpec e s p ⟨.ok p, { e with registry := e.registry.burn.add p }, s'⟩

theorem create_spec (e : Engine) (s : σ) (now : Timestamp) (fresh : ProposalId)
    (proposer : ParticipantId) (statement : String) :
    CreateSpec e s (e.next now fresh proposer statement)
      (e.create s now fresh proposer statement) := by
  unfold create
  dsimp only
  split
  · exact .store _ ‹_›
  · exact .done _ ‹_›

/-- How the acceptance of an action can go. -/
inductive AcceptSpec (e : Engine) (s : σ) (now : Timestamp) (p : ProposalId)
    (action : UInt64 → Ballot.Action) : Step σ Ballot.Action → Prop
  | notFound (hslot : e.registry.slots[p]? = none) :
    AcceptSpec e s now p action (e.refuse s (.notFound p))
  | closed (slot : Slot) (hslot : e.registry.slots[p]? = some slot)
      (hclosed : ¬ slot.proposal.IsOpen) :
    AcceptSpec e s now p action (e.refuse s (.ballotsClosed p))
  | store (slot : Slot) (x : StoreError) (hslot : e.registry.slots[p]? = some slot)
      (hopen : slot.proposal.IsOpen)
      (hput : Store.putBallot p slot.book.nextSeq
        (Format.ballotRecord.write ⟨action slot.book.nextSeq, now⟩) s = .error x) :
    AcceptSpec e s now p action (e.refuse s (.store x))
  | done (slot : Slot) (s' : σ) (hslot : e.registry.slots[p]? = some slot)
      (hopen : slot.proposal.IsOpen)
      (hput : Store.putBallot p slot.book.nextSeq
        (Format.ballotRecord.write ⟨action slot.book.nextSeq, now⟩) s = .ok s') :
    AcceptSpec e s now p action ⟨.ok (action slot.book.nextSeq),
      { e with
        registry := e.registry.update p
          { slot with book := slot.book.apply ⟨action slot.book.nextSeq, now⟩ } }, s'⟩

theorem accept_spec (e : Engine) (s : σ) (now : Timestamp) (p : ProposalId)
    (action : UInt64 → Ballot.Action) : AcceptSpec e s now p action (e.accept s now p action) := by
  unfold accept
  cases hslot : e.registry.slots[p]? with
  | none =>
    rw [slot_eq_error hslot]
    exact .notFound hslot
  | some slot =>
    rw [slot_eq_ok.2 hslot]
    dsimp only
    by_cases hopen : slot.proposal.IsOpen
    · rw [if_pos hopen]
      split
      · exact .store slot _ hslot hopen ‹_›
      · exact .done slot _ hslot hopen ‹_›
    · rw [if_neg hopen]
      exact .closed slot hslot hopen

/-- How the closing of a proposal with a result can go. -/
inductive CommitSpec (e : Engine) (s : σ) (p : ProposalId) (result : Tally) :
    Step σ Proposal → Prop
  | notFound (hslot : e.registry.slots[p]? = none) :
    CommitSpec e s p result (e.refuse s (.notFound p))
  | closed (slot : Slot) (hslot : e.registry.slots[p]? = some slot)
      (hclosed : ¬ slot.proposal.IsOpen) :
    CommitSpec e s p result (e.refuse s (.alreadyFinalized slot.proposal.id))
  | store (slot : Slot) (x : StoreError) (hslot : e.registry.slots[p]? = some slot)
      (hopen : slot.proposal.IsOpen)
      (hput : Store.putFinalization slot.proposal.id
        (Format.proposal.write (slot.proposal.finalize result)) (Format.tally.write result) s =
          .error x) :
    CommitSpec e s p result (e.refuse s (.store x))
  | done (slot : Slot) (s' : σ) (hslot : e.registry.slots[p]? = some slot)
      (hopen : slot.proposal.IsOpen)
      (hput : Store.putFinalization slot.proposal.id
        (Format.proposal.write (slot.proposal.finalize result)) (Format.tally.write result) s =
          .ok s') :
    CommitSpec e s p result ⟨.ok (slot.proposal.finalize result),
      { e with
        registry := e.registry.update p
          { slot with proposal := slot.proposal.finalize result } }, s'⟩

theorem commit_spec (e : Engine) (s : σ) (p : ProposalId) (result : Tally) :
    CommitSpec e s p result (e.commit s p result) := by
  unfold commit
  cases hslot : e.registry.slots[p]? with
  | none =>
    rw [slot_eq_error hslot]
    exact .notFound hslot
  | some slot =>
    rw [slot_eq_ok.2 hslot]
    dsimp only
    by_cases hopen : slot.proposal.IsOpen
    · rw [if_pos hopen]
      split
      · exact .store slot _ hslot hopen ‹_›
      · exact .done slot _ hslot hopen ‹_›
    · rw [if_neg hopen]
      exact .closed slot hslot hopen

/-- How the counting of votes can go. -/
inductive FinalizeSpec (e : Engine) (s : σ) (now : Timestamp) (p : ProposalId)
    (v : ParticipantId) : Step σ Tally → Prop
  | notFound (hslot : e.registry.slots[p]? = none) :
    FinalizeSpec e s now p v (e.refuse s (.notFound p))
  | closed (slot : Slot) (hslot : e.registry.slots[p]? = some slot)
      (hclosed : ¬ slot.proposal.IsOpen) :
    FinalizeSpec e s now p v (e.refuse s (.alreadyFinalized p))
  | notProposer (slot : Slot) (hslot : e.registry.slots[p]? = some slot)
      (hopen : slot.proposal.IsOpen) (hmay : ¬ MayFinalize e.rules slot.proposal v) :
    FinalizeSpec e s now p v (e.refuse s (.notProposer slot.proposal.proposer))
  | store (slot : Slot) (x : StoreError) (hslot : e.registry.slots[p]? = some slot)
      (hopen : slot.proposal.IsOpen) (hmay : MayFinalize e.rules slot.proposal v)
      (hput : Store.putFinalization slot.proposal.id
        (Format.proposal.write (slot.proposal.finalize (slot.tally p v now)))
        (Format.tally.write (slot.tally p v now)) s = .error x) :
    FinalizeSpec e s now p v (e.refuse s (.store x))
  | done (slot : Slot) (s' : σ) (hslot : e.registry.slots[p]? = some slot)
      (hopen : slot.proposal.IsOpen) (hmay : MayFinalize e.rules slot.proposal v)
      (hput : Store.putFinalization slot.proposal.id
        (Format.proposal.write (slot.proposal.finalize (slot.tally p v now)))
        (Format.tally.write (slot.tally p v now)) s = .ok s') :
    FinalizeSpec e s now p v ⟨.ok (slot.tally p v now),
      { e with
        registry := e.registry.update p
          { slot with proposal := slot.proposal.finalize (slot.tally p v now) } }, s'⟩

theorem finalize_spec (e : Engine) (s : σ) (now : Timestamp) (p : ProposalId)
    (v : ParticipantId) : FinalizeSpec e s now p v (e.finalize s now p v) := by
  unfold finalize
  cases hslot : e.registry.slots[p]? with
  | none =>
    rw [slot_eq_error hslot]
    exact .notFound hslot
  | some slot =>
    rw [slot_eq_ok.2 hslot]
    dsimp only
    by_cases hopen : slot.proposal.IsOpen
    · rw [if_pos hopen]
      by_cases hmay : MayFinalize e.rules slot.proposal v
      · rw [if_pos hmay]
        have hcommit := e.commit_spec s p (slot.tally p v now)
        show FinalizeSpec e s now p v ⟨(e.commit s p (slot.tally p v now)).answer.map fun _ =>
          slot.tally p v now, (e.commit s p (slot.tally p v now)).engine,
          (e.commit s p (slot.tally p v now)).store⟩
        generalize e.commit s p (slot.tally p v now) = step at hcommit ⊢
        cases hcommit with
        | notFound hnone =>
          rw [hslot] at hnone
          cases hnone
        | closed slot' hslot' hclosed =>
          obtain rfl := Option.some.inj (hslot.symm.trans hslot')
          exact absurd hopen hclosed
        | store slot' x hslot' _ hput =>
          obtain rfl := Option.some.inj (hslot.symm.trans hslot')
          exact .store slot x hslot hopen hmay hput
        | done slot' s' hslot' _ hput =>
          obtain rfl := Option.some.inj (hslot.symm.trans hslot')
          exact .done slot s' hslot hopen hmay hput
      · rw [if_neg hmay]
        exact .notProposer slot hslot hopen hmay
    · rw [if_neg hopen]
      exact .closed slot hslot hopen

end Engine

end DelegatedVoting
