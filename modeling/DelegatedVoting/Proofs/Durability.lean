import DelegatedVoting.Proofs.Runs

/-!
# Nothing is lost when an engine is recovered

At any time of a run, an engine that is recovered from the store shows what the engine shows that
is at work. It does not know of places in the order of creation that the store has refused to fill,
so its next proposal may take a smaller place.

* `Engine.Alike`: two engines show the same;
* `Recovery.storedSequences`: the places of the proposals that a store keeps;
* `Session.exists_recover_run_take`: an engine can be recovered at any time of a run.
-/

namespace DelegatedVoting

open Packed Recovery

/-! ### What an engine shows -/

/-- The number of the next ballot on a proposal. -/
def Engine.nextBallot (e : Engine) (p : ProposalId) : Except Refusal UInt64 :=
  (·.book.nextSeq) <$> e.slot p

/-- Two engines show the same. -/
structure Engine.Alike (e e' : Engine) : Prop where
  list_eq : e.list = e'.list
  count_eq : e.count = e'.count
  openCount_eq : e.openCount = e'.openCount
  proposal_eq : ∀ p, e.proposal p = e'.proposal p
  preview_eq : ∀ p, e.preview p = e'.preview p
  resolve_eq : ∀ p, e.resolve p = e'.resolve p
  actors_eq : ∀ p, e.actors p = e'.actors p
  current_eq : ∀ p v, e.current p v = e'.current p v
  history_eq : ∀ p v, e.history p v = e'.history p v
  nextBallot_eq : ∀ p, e.nextBallot p = e'.nextBallot p

/-- Engines with the same proposals and the same order of creation show the same. -/
theorem Engine.alike_of_eq {e e' : Engine} (hslots : e.registry.slots = e'.registry.slots)
    (horder : e.registry.order = e'.registry.order) : e.Alike e' := by
  have hslot : e.slot = e'.slot := by
    funext p
    simp only [Engine.slot, hslots]
  have hlist : e.list = e'.list := by
    simp only [Engine.list, Registry.list, hslots, horder]
  refine ⟨hlist, ?_, ?_, ?_, ?_, ?_, ?_, ?_, ?_, ?_⟩
  · simp only [Engine.count, Registry.count, horder]
  · exact congrArg (List.countP fun p => p.IsOpen) hlist
  all_goals
    intro p
    simp only [Engine.proposal, Engine.preview, Engine.resolve, Engine.actors, Engine.current,
      Engine.history, Engine.nextBallot, hslot, implies_true]

/-! ### The places in the order of creation -/

variable {σ : Type} [Store σ]

/-- The places in the order of creation of the proposals that a store keeps. -/
def Recovery.storedSequences (s : σ) : List Nat :=
  match Store.proposals s with
  | .ok entries => entries.filterMap fun e =>
      (Format.proposal.decode e.2).toOption.map fun p => p.sequence.toNat
  | .error _ => []

variable [LawfulStore σ]

namespace Registry.Mirrored

variable {store : σ} {r : Registry} {c : Contents}

theorem storedSequences_eq (h : r.Mirrored c) (hkeeps : LawfulStore.Keeps store c) :
    storedSequences store = r.slots.toList.map fun e => e.2.proposal.sequence.toNat := by
  rw [storedSequences, LawfulStore.proposals_eq hkeeps]
  dsimp only
  rw [h.proposals_eq, List.filterMap_map, ← List.filterMap_eq_map]
  refine List.filterMap_congr fun e he => ?_
  have hslot := Maps.mem_toList_iff.1 he
  have hdecode := (Format.proposal_roundTrips (h.mirrors hslot).fits).decode
  simp only [Function.comp_apply, hdecode]
  rfl

/-- The order is taken up behind the largest place in the store, or from the beginning. -/
theorem toNat_nextSequence_restored (h : r.Mirrored c) (hkeeps : LawfulStore.Keeps store c) :
    r.restored.nextSequence.toNat =
      match (storedSequences store).max? with
      | some n => n + 1
      | none => 0 := by
  obtain ⟨hlt, hnext⟩ := h.nextSequence_restored
  rw [h.storedSequences_eq hkeeps]
  cases hmax : (r.slots.toList.map fun e => e.2.proposal.sequence.toNat).max? with
  | none =>
    have hnil := List.map_eq_nil_iff.1 (List.max?_eq_none_iff.1 hmax)
    rcases hnext with hzero | ⟨p, slot, hslot, -⟩
    · rw [hzero]
      rfl
    · have : (p, slot) ∈ r.slots.toList := Maps.mem_toList_iff.2 hslot
      rw [hnil] at this
      cases this
  | some n =>
    obtain ⟨hn, hle⟩ := List.max?_eq_some_iff.1 hmax
    obtain ⟨e, he, rfl⟩ := List.mem_map.1 hn
    have hlt := hlt e.1 e.2 (Maps.mem_toList_iff.1 he)
    rcases hnext with hzero | ⟨p, slot, hslot, hsequence⟩
    · rw [hzero] at hlt
      exact absurd hlt (Nat.not_lt_zero _)
    · have hle : slot.proposal.sequence.toNat ≤ e.2.proposal.sequence.toNat :=
        hle _ (List.mem_map.2 ⟨(p, slot), Maps.mem_toList_iff.2 hslot, rfl⟩)
      show r.restored.nextSequence.toNat = e.2.proposal.sequence.toNat + 1
      omega

end Registry.Mirrored

/-! ### Recovery at any time of a run -/

namespace Session

/-- **An engine can be recovered at any time of a run.** After any of the events, refused ones
included, a recovery succeeds and leaves the store alone. The recovered engine shows what the live
one shows, and takes up the order of creation behind the largest place that is stored. -/
theorem exists_recover_run_take {rules : Rules} {store : σ} {now : Timestamp} {events : List Event}
    (hempty : LawfulStore.Keeps store .empty)
    (hevents : ∀ event ∈ events, event.Fits ∧ event.IsNamed)
    (htaken : (start rules store now).numbersTaken events < 2 ^ 64 - 2)
    (hnodup : ((start rules store now).generated events).Nodup) (n : Nat) (rules' : Rules) :
    let live := (start rules store now).run (events.take n)
    ∃ recovered, Engine.recover rules' live.store = .ok recovered ∧
      live.step (.restart rules') = { live with engine := recovered } ∧
      recovered.rules = rules' ∧ recovered.Alike live.engine ∧
      recovered.registry.nextSequence.toNat =
        (match (storedSequences live.store).max? with
          | some n => n + 1
          | none => 0) ∧
      recovered.registry.nextSequence ≤ live.engine.registry.nextSequence := by
  have horderly : Orderly [] (start rules store now) (events.take n ++ events.drop n) := by
    rw [List.take_append_drop]
    exact orderly_start hempty (fun event he => (hevents event he).1) htaken hnodup
  -- what is asked of the whole run holds of its beginning
  obtain ⟨c, hlive, hconsistent⟩ := (sound_start hempty rules now).isConsistent_run nofun
    horderly.append.1 fun event he => (hevents event (List.mem_of_mem_take he)).2
  have hmirrored := hlive.mirrored
  have hrecover : Engine.recover rules' _ = .ok _ :=
    (hmirrored.recover_eq_ok_iff hlive.keeps).2 ⟨hconsistent, rfl⟩
  refine ⟨_, hrecover, ?_, rfl, ?_, ?_, ?_⟩
  · simp only [step, respond, hrecover]
  · exact Engine.alike_of_eq hmirrored.slots_restored hmirrored.order_restored
  · exact hmirrored.toNat_nextSequence_restored hlive.keeps
  · exact UInt64.le_iff_toNat_le.2 hmirrored.nextSequence_restored_le

/-- A proposal, a ballot, and a proposal that the store refuses. -/
theorem exists_recover_run_take_of_refusal :
    let p : ProposalId := ⟨.replicate 16 1, rfl⟩
    let q : ProposalId := ⟨.replicate 16 2, rfl⟩
    let live := (start {} MemoryStore.empty 0).run
      [.create p 1 "tea", .vote p 2 true, .refuseWrites true, .create q 1 "cake"]
    ∃ recovered, Engine.recover {} live.store = .ok recovered ∧ recovered.Alike live.engine ∧
      recovered.registry.nextSequence ≤ live.engine.registry.nextSequence := by
  intro p q live
  let events : List Event :=
    [.create p 1 "tea", .vote p 2 true, .refuseWrites true, .create q 1 "cake"]
  have hevents : ∀ event ∈ events, event.Fits ∧ event.IsNamed := by
    simp [events, Event.Fits, Event.IsNamed]
    decide
  obtain ⟨recovered, hrecover, -, -, halike, -, hle⟩ :=
    @exists_recover_run_take MemoryStore _ _ {} .empty 0 events MemoryStore.contents_empty hevents
      ((numbersTaken_le_length _ _).trans_lt (by decide))
      ((generated_sublist _ _).nodup (by decide)) 4 {}
  exact ⟨recovered, hrecover, halike, hle⟩

end Session

end DelegatedVoting
