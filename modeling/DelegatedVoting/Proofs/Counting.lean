import Mathlib.Data.List.Perm.Subperm
import DelegatedVoting.Proofs.Finality
import DelegatedVoting.Proofs.Resolution

/-!
# The counts tell where the chains end

The tally of a proposal tells how many chains of delegations end in each vote. The counts that are
shown before a proposal is closed, those that it is closed with, and those that can be counted again
later are the same.

* `Ballot.Book.endingIn`: how many participants end up with a vote;
* `Ballot.Book.toNat_count`, `endingIn_total`: the counts of a resolution, and what they add up to;
* `Tally.Tells`: a tally tells where the chains of a book end;
* `Slot.Settled`, `Engine.Settled`: the result of a proposal was counted from its ballots;
* `Session.Sound.settled_run`: proposals are settled throughout a run without given results;
* `Session.counts_tell`: the counts before and after a proposal is closed.
-/

namespace DelegatedVoting

open Ballot

/-! ### How many chains end in a vote -/

namespace Ballot.Book

open Resolution

variable (b : Book) (vote : Vote)

/-- Where a chain ends is found by following it. -/
instance (v : ParticipantId) : Decidable (b.EndsIn v vote) :=
  have hfollow := (follow_spec (Progress.sound_start b).known (v := v) nofun).1
  decidable_of_iff
    ((follow (Progress.start b).resolved (Progress.start b).pending [] v).vote = vote)
    ⟨fun h => h ▸ hfollow, fun h => endsIn_unique hfollow h⟩

/-- How many of those who have acted end up with a vote. -/
def endingIn : Nat := b.actors.countP fun v => b.EndsIn v vote

theorem endingIn_le_length : b.endingIn vote ≤ b.actors.length := List.countP_le_length

/-- There are no more participants than names for them. -/
theorem length_actors_le : b.actors.length ≤ UInt32.size := by
  have hnodup : (b.actors.map UInt32.toNat).Nodup :=
    Std.ExtTreeMap.nodup_keys.map fun _ _ => UInt32.toNat_inj.1
  have hsubset : b.actors.map UInt32.toNat ⊆ List.range UInt32.size := by
    intro n hn
    obtain ⟨v, -, rfl⟩ := List.mem_map.1 hn
    exact List.mem_range.2 v.toNat_lt
  have := (hnodup.subperm hsubset).length_le
  rwa [List.length_map, List.length_range] at this

/-- The resolution has a vote as often as a chain ends in it. -/
theorem countP_values_resolve : b.resolve.values.countP (· = vote) = b.endingIn vote := by
  rw [endingIn, ← keys_resolve, Maps.values_eq, ← Std.ExtTreeMap.map_fst_toList_eq_keys,
    List.countP_map, List.countP_map]
  refine List.countP_congr fun e he => ?_
  obtain ⟨-, hend⟩ := getElem?_resolve.1 (Maps.mem_toList_iff.1 he)
  simp only [Function.comp_apply, decide_eq_true_eq]
  exact ⟨fun heq => heq ▸ hend, fun h => endsIn_unique hend h⟩

/-- No count is too large to be told. -/
theorem toNat_count :
    (UInt64.ofNat (b.resolve.values.countP (· = vote))).toNat = b.endingIn vote := by
  rw [b.countP_values_resolve]
  refine UInt64.toNat_ofNat_of_lt' ?_
  have hle := (b.endingIn_le_length vote).trans b.length_actors_le
  exact hle.trans_lt (by decide)

/-- Everybody who has acted ends up with exactly one vote. -/
theorem endingIn_total :
    b.endingIn .yes + b.endingIn .no + b.endingIn .abstain = b.actors.length := by
  have htotal (l : List ParticipantId) :
      l.countP (fun v => b.EndsIn v .yes) + l.countP (fun v => b.EndsIn v .no) +
        l.countP (fun v => b.EndsIn v .abstain) = l.length := by
    induction l with
    | nil => rfl
    | cons v l ih =>
      -- the chain of `v` raises one of the three counts
      obtain ⟨vote, hend⟩ := b.exists_endsIn v
      have hiff (vote' : Vote) : b.EndsIn v vote' ↔ vote = vote' :=
        ⟨endsIn_unique hend, fun heq => heq ▸ hend⟩
      simp only [List.countP_cons, List.length_cons, hiff, decide_eq_true_eq]
      cases vote <;> simp <;> omega
  exact htotal b.actors

end Ballot.Book

/-! ### Tallies -/

/-- A tally tells where the chains of a book end. -/
structure Tally.Tells (t : Tally) (p : ProposalId) (book : Book) : Prop where
  proposal_eq : t.proposal = p
  yesCount_eq : t.yesCount.toNat = book.endingIn .yes
  noCount_eq : t.noCount.toNat = book.endingIn .no
  abstainCount_eq : t.abstainCount.toNat = book.endingIn .abstain
  total_eq : t.yesCount.toNat + t.noCount.toNat + t.abstainCount.toNat = book.actors.length
  outcome_iff : t.outcome = .passed ↔ t.noCount < t.yesCount
  outcome_eq : t.outcome = t.counts.outcome
  counts_eq : t.counts = .ofResolution book.resolve

theorem Counts.outcome_eq_passed_iff (c : Counts) : c.outcome = .passed ↔ c.no < c.yes := by
  unfold Counts.outcome Outcome.ofCounts
  split
  · exact iff_of_true rfl ‹_›
  · exact iff_of_false nofun ‹_›

theorem Tally.tells_ofCounts (p : ProposalId) (book : Book) (v : ParticipantId) (now : Timestamp) :
    (Tally.ofCounts p (.ofResolution book.resolve) v now).Tells p book where
  proposal_eq := rfl
  yesCount_eq := book.toNat_count .yes
  noCount_eq := book.toNat_count .no
  abstainCount_eq := book.toNat_count .abstain
  total_eq := by
    rw [← book.endingIn_total, ← book.toNat_count .yes, ← book.toNat_count .no,
      ← book.toNat_count .abstain]
    rfl
  outcome_iff := Counts.outcome_eq_passed_iff _
  outcome_eq := rfl
  counts_eq := rfl

/-! ### Runs without given results -/

/-- The result of a proposal, if it has one, was counted from its ballots. -/
structure Slot.Settled (slot : Slot) (rules : Rules) (p : ProposalId) : Prop where
  status_iff : slot.proposal.status = .finalized ↔ ∃ t, slot.proposal.result = some t
  tells : ∀ t, slot.proposal.result = some t → t.Tells p slot.book
  finalizedBy_eq : ∀ t, slot.proposal.result = some t → rules.finalizePolicy = .proposerOnly →
    t.finalizedBy = slot.proposal.proposer

/-- The rules are the given ones, and every proposal is settled. -/
structure Engine.Settled (e : Engine) (rules : Rules) : Prop where
  rules_eq : e.rules = rules
  slots : ∀ (p : ProposalId) (slot : Slot), e.registry.slots[p]? = some slot → slot.Settled rules p

theorem Engine.settled_new (rules : Rules) : (Engine.new rules).Settled rules where
  rules_eq := rfl
  slots p slot h := by simp [Engine.new, Registry.empty] at h

theorem Slot.settled_of_isOpen {slot : Slot} {rules : Rules} {p : ProposalId}
    (hopen : slot.proposal.IsOpen) (hresult : slot.proposal.result = none) :
    slot.Settled rules p := by
  unfold Proposal.IsOpen at hopen
  refine ⟨?_, ?_, ?_⟩ <;> simp [hopen, hresult]

namespace Session

/-- Results are not given from outside, and engines are recovered with the same rules. -/
def Event.IsCall (rules : Rules) : Event → Prop
  | .create .. => False
  | .commit .. => False
  | .restart rules' => rules' = rules
  | _ => True

variable {σ : Type} [Store σ] [LawfulStore σ] {s : Session σ} {c c' : Contents} {e : Engine}
  {event : Event} {events : List Event} {used : List ProposalId} {p : ProposalId} {slot : Slot}
  {rules : Rules}

theorem Event.IsCall.fits (h : event.IsCall rules) : event.Fits := by
  cases event with
  | create => exact h.elim
  | _ => trivial

/-- The rules stay the same. -/
theorem Moves.rules_eq (hmove : s.Moves c event e c') (h : Sound used s c)
    (hcall : event.IsCall rules) (hrules : s.engine.rules = rules) : e.rules = rules := by
  cases hmove with
  | restart rules' engine hevent hrecover =>
    obtain ⟨-, rfl⟩ := (h.mirrored.recover_eq_ok_iff h.keeps).1 hrecover
    rw [hevent] at hcall
    exact hcall
  | _ => exact hrules

/-- Every proposal stays settled. -/
theorem Moves.settled (hmove : s.Moves c event e c') (h : Sound used s c)
    (hcall : event.IsCall rules) (hsettled : s.engine.Settled rules) : e.Settled rules := by
  refine ⟨hmove.rules_eq h hcall hsettled.rules_eq, fun p slot hslot => ?_⟩
  cases hmove.slotMoves h hslot with
  | keep _ hold => exact hsettled.slots p slot hold
  | enter proposal _ _ hopen hresult => exact Slot.settled_of_isOpen hopen hresult
  | ballot old r hold hopen =>
    exact Slot.settled_of_isOpen hopen ((h.mirrored.mirrors hold).isOpen_iff.1 hopen)
  | close old result hold hopen hresult =>
    rcases hresult with rfl | ⟨v, rfl, hmay, rfl⟩
    · exact hcall.elim
    · refine ⟨iff_of_true rfl ⟨_, rfl⟩, fun t ht => ?_, fun t ht hpolicy => ?_⟩
      · cases ht
        exact Tally.tells_ofCounts p old.book v s.now
      · cases ht
        rcases hmay with hanyone | hproposer
        · rw [hsettled.rules_eq, hpolicy] at hanyone
          cases hanyone
        · exact hproposer.symm

/-- **Every proposal is settled throughout a run** without given results. -/
theorem Sound.settled_run (h : Sound used s c) (hsettled : s.engine.Settled rules)
    (horderly : Orderly used s events) (hcalls : ∀ event ∈ events, event.IsCall rules) :
    (s.run events).engine.Settled rules := by
  obtain ⟨-, -, hrun⟩ := h.run (Q := Event.IsCall rules) (P := fun s _ => s.engine.Settled rules)
    (fun h hP hcall _ _ hmove => hmove.settled h hcall hP) hsettled horderly hcalls
  exact hrun

/-! ### Before and after a proposal is closed -/

/-- A proposal that is finalized was open, and is closed with a result that is counted from its
ballots. -/
theorem respond_finalize_eq_ok {p : ProposalId} {v : ParticipantId} {t : Tally}
    (h : (s.respond (.finalize p v)).1 = .ok (.tally t)) : ∃ slot : Slot,
      s.engine.registry.slots[p]? = some slot ∧ slot.proposal.IsOpen ∧ t = slot.tally p v s.now ∧
        (s.step (.finalize p v)).engine.registry.slots[p]? =
          some { slot with proposal := slot.proposal.finalize t } := by
  replace h : (s.engine.finalize s.store s.now p v).answer.map Reply.tally = .ok (.tally t) := h
  show ∃ slot : Slot, _ ∧ _ ∧ _ ∧
    (s.engine.finalize s.store s.now p v).engine.registry.slots[p]? = _
  have hspec := s.engine.finalize_spec s.store s.now p v
  generalize s.engine.finalize s.store s.now p v = step at hspec h ⊢
  cases hspec with
  | done slot s' hslot hopen hmay hput =>
    cases h
    exact ⟨slot, hslot, hopen, rfl, (Registry.getElem?_slots_update _ _ _ _).trans (if_pos rfl)⟩
  | _ => cases h

omit [Store σ] [LawfulStore σ] in
/-- Before a proposal is closed, the counts so far are shown. -/
theorem preview_of_result_eq_none (hslot : e.registry.slots[p]? = some slot)
    (hresult : slot.proposal.result = none) :
    e.preview p = .ok ⟨p, .ofResolution slot.book.resolve,
      (Counts.ofResolution slot.book.resolve).outcome, slot.proposal.status⟩ := by
  rw [Engine.preview, Engine.slot_eq_ok.2 hslot, ok_bind, hresult]
  rfl

omit [Store σ] [LawfulStore σ] in
/-- After a proposal has been closed, the counts of its result are shown. -/
theorem preview_of_result_eq_some {t : Tally} (hslot : e.registry.slots[p]? = some slot)
    (hresult : slot.proposal.result = some t) :
    e.preview p = .ok ⟨p, t.counts, t.outcome, slot.proposal.status⟩ := by
  rw [Engine.preview, Engine.slot_eq_ok.2 hslot, ok_bind, hresult]
  rfl

/-- **The counts tell where the chains end,** throughout a run in which no results are given from
outside. A proposal is closed with the counts that are shown just before, they are shown ever
after, and counting again comes to them. -/
theorem counts_tell {rules : Rules} {store : σ} {now : Timestamp} {events : List Event}
    (hempty : LawfulStore.Keeps store .empty) (hcalls : ∀ event ∈ events, event.IsCall rules)
    (hroom : Throughout HasRoom (start rules store now) events)
    (hnodup : ((start rules store now).generated events).Nodup) :
    let live := (start rules store now).run events
    (∀ p slot, live.engine.slot p = .ok slot → slot.Settled rules p) ∧
      ∀ before after p v t, events = before ++ .finalize p v :: after →
        let early := (start rules store now).run before
        (early.respond (.finalize p v)).1 = .ok (.tally t) →
          early.engine.preview p = .ok ⟨p, t.counts, t.outcome, .open⟩ ∧
          live.engine.preview p = .ok ⟨p, t.counts, t.outcome, .finalized⟩ ∧
          (·.result) <$> live.engine.proposal p = .ok (some t) ∧
          Counts.ofResolution <$> live.engine.resolve p = .ok t.counts := by
  intro live
  have hstart := sound_start hempty rules now
  have horderly : Orderly [] (start rules store now) events :=
    ⟨fun event he => (hcalls event he).fits, hroom, hnodup, nofun⟩
  refine ⟨fun p slot hslot => ?_, fun before after p v t hevents => ?_⟩
  · have hsettled := hstart.settled_run (Engine.settled_new rules) horderly hcalls
    exact hsettled.slots p slot (Engine.slot_eq_ok.1 hslot)
  · intro early hfinalize
    subst hevents
    obtain ⟨hbefore, hafter⟩ := horderly.append
    obtain ⟨c, hearly⟩ := hstart.sound_run hbefore
    obtain ⟨slot, hslot, hopen, ht, hclosed⟩ := respond_finalize_eq_ok hfinalize
    obtain ⟨hfits, hroom', hfresh⟩ := hafter.head
    obtain ⟨c', hstep, -⟩ := hearly.step hfits hroom' hfresh
    -- from here on the proposal is closed, so what is known about it stays the same
    obtain ⟨c'', -, hlive, -⟩ := hstep.closed_run hclosed nofun hafter.tail
    rw [← run_cons, ← run_append] at hlive
    have hcounts : t.counts = .ofResolution slot.book.resolve := by rw [ht]; rfl
    have houtcome : t.outcome = t.counts.outcome := by rw [ht]; rfl
    refine ⟨?_, preview_of_result_eq_some hlive rfl, ?_, ?_⟩
    · rw [preview_of_result_eq_none hslot ((hearly.mirrored.mirrors hslot).isOpen_iff.1 hopen),
        houtcome, hcounts, show slot.proposal.status = .open from hopen]
    · rw [Engine.proposal, Engine.slot_eq_ok.2 hlive]
      rfl
    · rw [Engine.resolve, Engine.slot_eq_ok.2 hlive, hcounts]
      rfl

/-- Two yes votes, a no, and a delegation to somebody who has not acted. A ballot comes too late. -/
theorem counts_tell_of_four :
    let p : ProposalId := ⟨.replicate 16 1, rfl⟩
    let rules : Rules := { finalizePolicy := .proposerOnly }
    let before : List Event := [.propose p 1 "tea", .vote p 2 true, .delegate p 1 2,
      .vote p 3 false, .delegate p 4 5]
    let early := (start rules MemoryStore.empty 0).run before
    let late := (start rules MemoryStore.empty 0).run (before ++ [.finalize p 1, .vote p 4 false])
    early.engine.preview p = .ok ⟨p, ⟨2, 1, 1⟩, .passed, .open⟩ ∧
      late.engine.preview p = .ok ⟨p, ⟨2, 1, 1⟩, .passed, .finalized⟩ := by
  intro p rules before early late
  have hcalls : ∀ event ∈ before ++ [.finalize p 1, .vote p 4 false], event.IsCall rules := by
    simp [before, Event.IsCall]
  have hnodup : ((start rules MemoryStore.empty 0).generated
      (before ++ [.finalize p 1, .vote p 4 false])).Nodup :=
    (generated_sublist _ _).nodup (by decide)
  have hroom : Throughout HasRoom (start rules MemoryStore.empty 0)
      (before ++ [.finalize p 1, .vote p 4 false]) :=
    (orderly_start MemoryStore.contents_empty (fun event he => (hcalls event he).fits)
      ((numbersTaken_le_length _ _).trans_lt (by decide)) hnodup).hasRoom
  have hfinalize : (early.respond (.finalize p 1)).1 =
      .ok (.tally ⟨p, 2, 1, 1, .passed, 1, 0⟩) := by
    decide +kernel
  obtain ⟨hearly, hlate, -⟩ := (counts_tell MemoryStore.contents_empty hcalls hroom hnodup).2
    before [.vote p 4 false] p 1 _ rfl hfinalize
  exact ⟨hearly, hlate⟩

end Session

end DelegatedVoting
