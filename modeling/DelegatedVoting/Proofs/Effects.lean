import DelegatedVoting.Proofs.Calls
import DelegatedVoting.Proofs.Session

/-!
# How an event can go

What is replied to an event, what the store has been told to keep, and what has become of the engine
belong together: either a call is refused and nothing has changed, or the store has accepted one
write and memory follows it. The exception is a new proposal that the store refuses, whose place in
the order of creation is taken all the same.

* `Session.Creates`, `Event.Casts`, `Session.Closes`: what an event asks for;
* `Session.Goes`: how an event can go;
* `Session.respond_goes`: every event goes in one of these ways.
-/

namespace DelegatedVoting

open Packed

namespace Session

variable {σ : Type} [Store σ] [LawfulStore σ]

/-! ### What an event asks for -/

/-- The event asks for a new proposal, with a statement that the call accepts. -/
def Creates (s : Session σ) (event : Event) (fresh : ProposalId) (v : ParticipantId)
    (text : String) : Prop :=
  (event = .propose fresh v text ∧ Engine.statementFault? s.engine.rules text = none) ∨
    event = .create fresh v text

/-- The event asks to accept an action on a proposal, under whatever number. -/
def Event.Casts (event : Event) (p : ProposalId) (action : UInt64 → Ballot.Action) : Prop :=
  (∃ v isYes, event = .vote p v isYes ∧ action = .vote v isYes) ∨
    ∃ v d, event = .delegate p v d ∧ v ≠ d ∧ action = .delegation v d

/-- The event asks to close a proposal, with a given result or with the one that is counted, and is
replied to if it is done. -/
def Closes (s : Session σ) (event : Event) (p : ProposalId) (slot : Slot) (result : Tally)
    (reply : Reply) : Prop :=
  (event = .commit p result ∧ reply = .proposal (slot.proposal.finalize result)) ∨
    ∃ v, event = .finalize p v ∧ Engine.MayFinalize s.engine.rules slot.proposal v ∧
      result = slot.tally p v s.now ∧ reply = .tally result

variable {s : Session σ} {event : Event} {fresh p : ProposalId} {v d : ParticipantId}
  {text : String} {action : UInt64 → Ballot.Action} {slot : Slot} {result : Tally} {reply : Reply}

/-- An acceptable statement is not too long to tell its length. -/
theorem fits_of_statementFault? {rules : Rules} (h : Engine.statementFault? rules text = none) :
    text.utf8ByteSize < UInt64.size := by
  unfold Engine.statementFault? at h
  split at h
  · cases h
  · split at h
    · cases h
    · rename_i hlength
      exact (Nat.le_of_not_lt hlength).trans_lt rules.maxStatementLength.toNat_lt

omit [Store σ] [LawfulStore σ] in
theorem Creates.fits (h : s.Creates event fresh v text) (hfits : event.Fits) :
    text.utf8ByteSize < UInt64.size := by
  rcases h with ⟨rfl, hfault⟩ | rfl
  · exact fits_of_statementFault? hfault
  · exact hfits

omit [Store σ] [LawfulStore σ] in
theorem Creates.generates_eq (h : s.Creates event fresh v text) : s.generates event = [fresh] := by
  rcases h with ⟨rfl, hfault⟩ | rfl
  · exact if_pos hfault
  · rfl

theorem Event.Casts.isBallot (h : event.Casts p action) : event.IsBallot := by
  rcases h with ⟨v, isYes, rfl, -⟩ | ⟨v, d, rfl, -, -⟩ <;> trivial

theorem Event.Casts.seq_eq (h : event.Casts p action) (seq : UInt64) : (action seq).seq = seq := by
  rcases h with ⟨v, isYes, -, rfl⟩ | ⟨v, d, -, -, rfl⟩ <;> rfl

theorem Event.Casts.not_self (h : event.Casts p action) (seq : UInt64) :
    ¬ (action seq).IsSelfDelegation := by
  rcases h with ⟨v, isYes, -, rfl⟩ | ⟨v, d, -, hother, rfl⟩
  · exact id
  · exact hother

omit [Store σ] [LawfulStore σ] in
theorem Closes.closes (h : s.Closes event p slot result reply) : event.Closes p := by
  rcases h with ⟨rfl, -⟩ | ⟨v, rfl, -⟩ <;> rfl

/-! ### How an event can go -/

/-- How an event can go: what is replied, and the session after it. -/
inductive Goes (s : Session σ) : Event → Except Refusal Reply → Session σ → Prop
  /-- Something is refused, but not a new proposal by the store. Nothing has changed. -/
  | refused (event : Event) (x : Refusal) (hx : ∀ y, x = .store y → event.fresh? = none) :
    Goes s event (.error x) s
  /-- The store has refused a new proposal, whose place is taken. -/
  | burned (event : Event) (fresh : ProposalId) (v : ParticipantId) (text : String)
      (x : StoreError) (hcreates : s.Creates event fresh v text) :
    Goes s event (.error (.store x))
      { s with engine := { s.engine with registry := s.engine.registry.burn } }
  /-- A proposal has been created. -/
  | created (event : Event) (fresh : ProposalId) (v : ParticipantId) (text : String) (store : σ)
      (hcreates : s.Creates event fresh v text)
      (hput : Store.putProposal fresh
        (Format.proposal.write (s.engine.next s.now fresh v text)) s.store = .ok store) :
    Goes s event (.ok (.proposal (s.engine.next s.now fresh v text)))
      ⟨{ s.engine with
        registry := s.engine.registry.burn.add (s.engine.next s.now fresh v text) }, store, s.now⟩
  /-- A ballot has been accepted. -/
  | cast (event : Event) (p : ProposalId) (action : UInt64 → Ballot.Action) (slot : Slot)
      (store : σ) (hcasts : event.Casts p action)
      (hslot : s.engine.registry.slots[p]? = some slot) (hopen : slot.proposal.IsOpen)
      (hput : Store.putBallot p slot.book.nextSeq
        (Format.ballotRecord.write ⟨action slot.book.nextSeq, s.now⟩) s.store = .ok store) :
    Goes s event (.ok (.action (action slot.book.nextSeq)))
      ⟨{ s.engine with
        registry := s.engine.registry.update p
          { slot with book := slot.book.apply ⟨action slot.book.nextSeq, s.now⟩ } }, store, s.now⟩
  /-- A proposal has been closed. -/
  | closed (event : Event) (p : ProposalId) (slot : Slot) (result : Tally) (reply : Reply)
      (store : σ) (hcloses : s.Closes event p slot result reply)
      (hslot : s.engine.registry.slots[p]? = some slot) (hopen : slot.proposal.IsOpen)
      (hput : Store.putFinalization slot.proposal.id
        (Format.proposal.write (slot.proposal.finalize result)) (Format.tally.write result)
          s.store = .ok store) :
    Goes s event (.ok reply)
      ⟨{ s.engine with
        registry := s.engine.registry.update p
          { slot with proposal := slot.proposal.finalize result } }, store, s.now⟩
  | clock (now : Timestamp) : Goes s (.clock now) (.ok .done) { s with now }
  | refuseWrites (refuse : Bool) :
    Goes s (.refuseWrites refuse) (.ok .done)
      { s with store := LawfulStore.refuseWrites refuse s.store }
  /-- An engine has been recovered. -/
  | restarted (rules : Rules) (engine : Engine)
      (hrecover : Engine.recover rules s.store = .ok engine) :
    Goes s (.restart rules) (.ok .done) { s with engine }

theorem create_goes (hcreates : s.Creates event fresh v text) :
    s.Goes event (s.after .proposal (s.engine.create s.store s.now fresh v text)).1
      (s.after .proposal (s.engine.create s.store s.now fresh v text)).2 := by
  have hspec := s.engine.create_spec s.store s.now fresh v text
  generalize s.engine.create s.store s.now fresh v text = call at hspec ⊢
  cases hspec with
  | store x => exact .burned event fresh v text x hcreates
  | done store hput => exact .created event fresh v text store hcreates hput

theorem accept_goes (hcasts : event.Casts p action) :
    s.Goes event (s.after .action (s.engine.accept s.store s.now p action)).1
      (s.after .action (s.engine.accept s.store s.now p action)).2 := by
  have hfresh : event.fresh? = none := by
    rcases hcasts with ⟨v, isYes, rfl, -⟩ | ⟨v, d, rfl, -, -⟩ <;> rfl
  have hspec := s.engine.accept_spec s.store s.now p action
  generalize s.engine.accept s.store s.now p action = call at hspec ⊢
  cases hspec with
  | notFound => exact .refused event _ fun _ _ => hfresh
  | closed => exact .refused event _ fun _ _ => hfresh
  | store => exact .refused event _ fun _ _ => hfresh
  | done slot store hslot hopen hput =>
    exact .cast event p action slot store hcasts hslot hopen hput

theorem commit_goes : s.Goes (.commit p result)
    (s.after .proposal (s.engine.commit s.store p result)).1
    (s.after .proposal (s.engine.commit s.store p result)).2 := by
  have hspec := s.engine.commit_spec s.store p result
  generalize s.engine.commit s.store p result = call at hspec ⊢
  cases hspec with
  | notFound => exact .refused _ _ fun _ _ => rfl
  | closed => exact .refused _ _ fun _ _ => rfl
  | store => exact .refused _ _ fun _ _ => rfl
  | done slot store hslot hopen hput =>
    exact .closed _ p slot result _ store (.inl ⟨rfl, rfl⟩) hslot hopen hput

theorem finalize_goes : s.Goes (.finalize p v)
    (s.after .tally (s.engine.finalize s.store s.now p v)).1
    (s.after .tally (s.engine.finalize s.store s.now p v)).2 := by
  have hspec := s.engine.finalize_spec s.store s.now p v
  generalize s.engine.finalize s.store s.now p v = call at hspec ⊢
  cases hspec with
  | notFound => exact .refused _ _ fun _ _ => rfl
  | closed => exact .refused _ _ fun _ _ => rfl
  | notProposer => exact .refused _ _ fun _ _ => rfl
  | store => exact .refused _ _ fun _ _ => rfl
  | done slot store hslot hopen hmay hput =>
    exact .closed _ p slot _ _ store (.inr ⟨v, rfl, hmay, rfl, rfl⟩) hslot hopen hput

/-- **An event goes in one of these ways.** -/
theorem respond_goes (s : Session σ) (event : Event) :
    s.Goes event (s.respond event).1 (s.respond event).2 := by
  cases event with
  | propose fresh v text =>
    rw [respond, Engine.propose]
    split
    · exact .refused _ _ nofun
    · exact create_goes (.inl ⟨rfl, ‹_›⟩)
  | create fresh v text => exact create_goes (.inr rfl)
  | vote p v isYes => exact accept_goes (.inl ⟨v, isYes, rfl, rfl⟩)
  | delegate p v d =>
    rw [respond, Engine.delegate]
    split
    · exact .refused _ _ nofun
    · exact accept_goes (.inr ⟨v, d, rfl, ‹_›, rfl⟩)
  | finalize p v => exact finalize_goes
  | commit p result => exact commit_goes
  | clock now => exact .clock now
  | refuseWrites refuse => exact .refuseWrites refuse
  | restart rules =>
    rw [respond]
    split
    · exact .restarted rules _ ‹_›
    · exact .refused _ _ fun _ _ => rfl

end Session

end DelegatedVoting
