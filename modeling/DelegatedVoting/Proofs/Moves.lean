import DelegatedVoting.Proofs.Effects

/-!
# What an event can do

An event leaves the engine and the contents of the store as they are, or makes one of a few
changes, and each of the changes to a proposal is made in both. Whatever holds of all these changes
holds of all runs.

* `Session.Moves`: the changes, each with what is known when it is made;
* `Session.step_moves`: every event makes one of them.
-/

namespace DelegatedVoting

open Packed

namespace Session

variable {σ : Type} [Store σ] [LawfulStore σ]

/-- The event concerns neither the engine nor what the store keeps. -/
def Event.IsQuiet : Event → Prop
  | .clock _ => True
  | .refuseWrites _ => True
  | _ => False

/-- What an event can make of the engine and of the contents `c` of the store. -/
inductive Moves (s : Session σ) (c : Contents) (event : Event) : Engine → Contents → Prop
  /-- The event is refused, or concerns neither. -/
  | stay (hquiet : s.Accepts event → event.IsQuiet) : Moves s c event s.engine c
  /-- A proposal has been refused by the store. -/
  | burn (fresh : ProposalId) (hfresh : s.generates event = [fresh]) :
    Moves s c event { s.engine with registry := s.engine.registry.burn } c
  /-- A proposal has been created. -/
  | enter (p : Proposal) (hfresh : s.generates event = [p.id])
      (hsequence : p.sequence = s.engine.registry.nextSequence) (hopen : p.IsOpen)
      (hresult : p.result = none) (hfits : p.statement.utf8ByteSize < UInt64.size) :
    Moves s c event { s.engine with registry := s.engine.registry.burn.add p }
      (c.putProposal p.id (Format.proposal.write p))
  /-- A ballot has been accepted. -/
  | ballot (p : ProposalId) (slot : Slot) (r : Ballot.Record)
      (hslot : s.engine.registry.slots[p]? = some slot) (hopen : slot.proposal.IsOpen)
      (hseq : r.action.seq = slot.book.nextSeq) (hself : ¬ r.action.IsSelfDelegation)
      (hballot : event.IsBallot) (haccepts : s.Accepts event) :
    Moves s c event
      { s.engine with
        registry := s.engine.registry.update p { slot with book := slot.book.apply r } }
      (c.putBallot p r.action.seq (Format.ballotRecord.write r))
  /-- A proposal has been closed, with a given result or with the one that has been counted. -/
  | close (p : ProposalId) (slot : Slot) (result : Tally)
      (hslot : s.engine.registry.slots[p]? = some slot) (hopen : slot.proposal.IsOpen)
      (hcloses : event.Closes p) (haccepts : s.Accepts event)
      (hresult : event = .commit p result ∨
        ∃ v, event = .finalize p v ∧ Engine.MayFinalize s.engine.rules slot.proposal v ∧
          result = slot.tally p v s.now) :
    Moves s c event
      { s.engine with
        registry := s.engine.registry.update p
          { slot with proposal := slot.proposal.finalize result } }
      (c.putFinalization slot.proposal.id (Format.proposal.write (slot.proposal.finalize result))
        (Format.tally.write result))
  /-- An engine has been recovered. -/
  | restart (rules : Rules) (engine : Engine) (hevent : event = .restart rules)
      (hrecover : Engine.recover rules s.store = .ok engine) : Moves s c event engine c

variable {s : Session σ} {c : Contents} {event : Event}

/-- The way that an event goes is one of the changes. -/
theorem Goes.moves {reply : Except Refusal Reply} {s' : Session σ} (hgoes : s.Goes event reply s')
    (hkeeps : LawfulStore.Keeps s.store c) (hfits : event.Fits)
    (haccepts : s.Accepts event ↔ reply.isOk) :
    ∃ c', LawfulStore.Keeps s'.store c' ∧ s.Moves c event s'.engine c' := by
  cases hgoes with
  | refused => exact ⟨c, hkeeps, .stay fun h => nomatch haccepts.1 h⟩
  | burned _ fresh v text x hcreates => exact ⟨c, hkeeps, .burn fresh hcreates.generates_eq⟩
  | created _ fresh v text store hcreates hput =>
    exact ⟨_, LawfulStore.keeps_putProposal hkeeps hput,
      .enter _ hcreates.generates_eq rfl rfl rfl (hcreates.fits hfits)⟩
  | cast _ p action slot store hcasts hslot hopen hput =>
    -- the store keeps the ballot under its number, which is the next one of the book
    have hmove := Moves.ballot (s := s) (c := c) p slot ⟨action slot.book.nextSeq, s.now⟩ hslot
      hopen (hcasts.seq_eq _) (hcasts.not_self _) hcasts.isBallot (haccepts.2 rfl)
    rw [hcasts.seq_eq] at hmove
    exact ⟨_, LawfulStore.keeps_putBallot hkeeps hput, hmove⟩
  | closed _ p slot result reply store hcloses hslot hopen hput =>
    refine ⟨_, LawfulStore.keeps_putFinalization hkeeps hput,
      .close p slot result hslot hopen hcloses.closes (haccepts.2 rfl) ?_⟩
    exact hcloses.imp And.left fun ⟨v, hevent, hmay, hresult, _⟩ => ⟨v, hevent, hmay, hresult⟩
  | clock => exact ⟨c, hkeeps, .stay fun _ => trivial⟩
  | refuseWrites refuse =>
    exact ⟨c, LawfulStore.keeps_refuseWrites refuse hkeeps, .stay fun _ => trivial⟩
  | restarted rules engine hrecover => exact ⟨c, hkeeps, .restart rules engine rfl hrecover⟩

/-- **An event makes one of the changes.** Whatever happens, the store keeps what it kept, or what
the change makes of it. -/
theorem step_moves (hkeeps : LawfulStore.Keeps s.store c) (hfits : event.Fits) :
    ∃ c', LawfulStore.Keeps (s.step event).store c' ∧ s.Moves c event (s.step event).engine c' :=
  (s.respond_goes event).moves hkeeps hfits Iff.rfl

end Session

end DelegatedVoting
