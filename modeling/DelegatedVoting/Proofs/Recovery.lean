import DelegatedVoting.Proofs.Validation

/-!
# Recovery

What is read of the proposals is put together one by one, in the order of their names. The outcome
depends on nothing but what is known about each proposal: the order of creation has the places that
the proposals name, and it is taken up behind the last place in use.

Where memory and store agree, a recovery reads back what is in memory, and it succeeds unless a
proposal was closed with a result that names another one.

* `Registry.ofSlots`, `Registry.restored`: a registry that is put together;
* `Registry.ReadFrom`: a registry is what a store tells;
* `Recovery.recover_eq_ok_iff`, `exists_recover_iff`: what a recovery comes to, and when it
  succeeds;
* `Registry.Mirrored.recover_eq_ok_iff`: both of these where memory and store agree;
* `Registry.Mirrored.restored`: memory and store agree after a recovery.
-/

namespace DelegatedVoting

open Packed Recovery

/-! ### Registries that are put together -/

namespace Registry

/-- The registry of proposals that are restored one after the other. -/
def ofSlots (slots : List Slot) : Registry :=
  slots.foldl (fun restored slot => restored.restore slot) .empty

@[simp] theorem ofSlots_append (slots : List Slot) (slot : Slot) :
    ofSlots (slots ++ [slot]) = (ofSlots slots).restore slot := by simp [ofSlots]

theorem slots_ofSlots (slots : List Slot) :
    (ofSlots slots).slots = slots.foldl (fun m slot => m.insert slot.proposal.id slot) ∅ := by
  induction slots using List.reverseRecOn with
  | nil => rfl
  | append_singleton slots last ih => simp [restore, ih]

theorem order_ofSlots (slots : List Slot) :
    (ofSlots slots).order =
      slots.foldl (fun m slot => m.insert slot.proposal.sequence slot.proposal.id) ∅ := by
  induction slots using List.reverseRecOn with
  | nil => rfl
  | append_singleton slots last ih => simp [restore, ih]

/-- Restored proposals come before the next one, which takes the place behind one of them. -/
theorem nextSequence_ofSlots {slots : List Slot}
    (h : ∀ slot ∈ slots, HasSuccessor slot.proposal.sequence) :
    let next := (ofSlots slots).nextSequence
    (∀ slot ∈ slots, slot.proposal.sequence.toNat < next.toNat) ∧
      (next = 0 ∨ ∃ slot ∈ slots, next.toNat = slot.proposal.sequence.toNat + 1) := by
  induction slots using List.reverseRecOn with
  | nil => exact ⟨nofun, .inl rfl⟩
  | append_singleton slots last ih =>
    obtain ⟨hlt, hnext⟩ := ih fun slot hslot => h slot (List.mem_append_left _ hslot)
    have hafter := Ballot.Book.toNat_after (h last (by simp))
    have hmax : (ofSlots (slots ++ [last])).nextSequence.toNat =
        max (ofSlots slots).nextSequence.toNat (last.proposal.sequence.toNat + 1) := by
      rw [ofSlots_append, restore, toNat_max, hafter]
    refine ⟨fun slot hslot => ?_, ?_⟩
    · rw [hmax]
      rcases List.mem_append.1 hslot with hslot | hslot
      · have := hlt slot hslot
        omega
      · obtain rfl := List.mem_singleton.1 hslot
        omega
    -- the place of the next proposal moves if and only if the last one stands behind the others
    · by_cases hle : last.proposal.sequence.toNat + 1 ≤ (ofSlots slots).nextSequence.toNat
      · have heq : (ofSlots (slots ++ [last])).nextSequence = (ofSlots slots).nextSequence :=
          UInt64.toNat_inj.1 (by rw [hmax, Nat.max_eq_left hle])
        rw [heq]
        exact hnext.imp_right fun ⟨slot, hslot, hseq⟩ => ⟨slot, List.mem_append_left _ hslot, hseq⟩
      · exact .inr ⟨last, by simp, by rw [hmax]; omega⟩

/-- What is restored of a registry, one proposal after the other in the order of their names. -/
def restored (r : Registry) : Registry :=
  r.slots.toList.foldl (fun restored e => restored.restore e.2) .empty

theorem restored_eq (r : Registry) : r.restored = ofSlots r.slots.values := by
  rw [restored, ofSlots, Maps.values_eq, List.foldl_map]

/-- Every proposal is kept under its own name. -/
def IsFiled (r : Registry) : Prop :=
  ∀ (p : ProposalId) (slot : Slot), r.slots[p]? = some slot → slot.proposal.id = p

theorem slots_restored {r : Registry} (h : r.IsFiled) : r.restored.slots = r.slots := by
  refine Std.ExtTreeMap.ext_getElem? fun p => Option.ext fun slot => ?_
  rw [restored_eq, slots_ofSlots]
  refine (Maps.getElem?_foldl_insert_eq_some_iff fun a ha b hb hid => ?_).trans ?_
  · obtain ⟨q, hq⟩ := Maps.mem_values_iff.1 ha
    obtain ⟨q', hq'⟩ := Maps.mem_values_iff.1 hb
    rw [← h q a hq, hid, h q' b hq'] at hq
    exact Option.some.inj (hq.symm.trans hq')
  · simp only [Maps.mem_values_iff]
    constructor
    · rintro ⟨_, ⟨q, hq⟩, rfl, rfl⟩
      rw [h q _ hq]
      exact hq
    · exact fun hslot => ⟨slot, ⟨p, hslot⟩, h p slot hslot, rfl⟩

/-- The proposals follow the order of their names. -/
theorem IsFiled.pairwise_values {r : Registry} (h : r.IsFiled) :
    r.slots.values.Pairwise fun slot slot' =>
      compare slot.proposal.id slot'.proposal.id = .lt := by
  rw [Maps.values_eq, List.pairwise_map]
  refine (Maps.sorted_toList r.slots).imp_of_mem fun {e e'} he he' hlt => ?_
  rw [h _ _ (Maps.mem_toList_iff.1 he), h _ _ (Maps.mem_toList_iff.1 he')]
  exact hlt

/-- Of the proposals that name a place, the last one in the order of their names is restored to
it. -/
theorem order_restored_iff {r : Registry} (h : r.IsFiled) {n : UInt64} {p : ProposalId} :
    r.restored.order[n]? = some p ↔ ∃ slot, r.slots[p]? = some slot ∧
      slot.proposal.sequence = n ∧ ∀ (q : ProposalId) (slot' : Slot), r.slots[q]? = some slot' →
        slot'.proposal.sequence = n → q ≠ p → compare q p = .lt := by
  have hmem {slot : Slot} : slot ∈ (r.slots.values.filter fun slot =>
      slot.proposal.sequence = n) ↔ (∃ q : ProposalId, r.slots[q]? = some slot) ∧
        slot.proposal.sequence = n := by
    rw [List.mem_filter, Maps.mem_values_iff, decide_eq_true_eq]
  have hlast {slot : Slot} := Maps.getLast?_eq_some_iff_of_sorted (a := slot)
    (h.pairwise_values.filter fun slot => slot.proposal.sequence = n)
  rw [restored_eq, order_ofSlots, Maps.getElem?_foldl_insert, Option.map_eq_some_iff]
  simp only [hlast, hmem]
  constructor
  · rintro ⟨slot, ⟨⟨⟨q, hq⟩, hsequence⟩, hlast⟩, rfl⟩
    obtain rfl := h q slot hq
    refine ⟨slot, hq, hsequence, fun q' slot' hq' hsequence' hne => ?_⟩
    obtain rfl := h q' slot' hq'
    exact hlast slot' ⟨⟨_, hq'⟩, hsequence'⟩ fun heq => hne (heq ▸ rfl)
  · rintro ⟨slot, hslot, hsequence, hlast⟩
    refine ⟨slot, ⟨⟨⟨p, hslot⟩, hsequence⟩, fun slot' hslot' hne => ?_⟩, h p slot hslot⟩
    obtain ⟨⟨q, hq⟩, hsequence'⟩ := hslot'
    rw [h q slot' hq, h p slot hslot]
    refine hlast q slot' hq hsequence' fun heq => hne ?_
    exact Option.some.inj (hq.symm.trans (heq ▸ hslot))

/-- Restored proposals come before the next one, which takes the place behind one of them. -/
theorem nextSequence_restored {r : Registry} (h : ∀ (p : ProposalId) (slot : Slot),
    r.slots[p]? = some slot → HasSuccessor slot.proposal.sequence) :
    (∀ (p : ProposalId) (slot : Slot), r.slots[p]? = some slot →
      slot.proposal.sequence.toNat < r.restored.nextSequence.toNat) ∧
      (r.restored.nextSequence = 0 ∨ ∃ (p : ProposalId) (slot : Slot),
        r.slots[p]? = some slot ∧
          r.restored.nextSequence.toNat = slot.proposal.sequence.toNat + 1) := by
  have hroom : ∀ slot ∈ r.slots.values, HasSuccessor slot.proposal.sequence := fun slot hslot => by
    obtain ⟨p, hp⟩ := Maps.mem_values_iff.1 hslot
    exact h p slot hp
  obtain ⟨hlt, hnext⟩ := nextSequence_ofSlots hroom
  rw [restored_eq]
  refine ⟨fun p slot hslot => hlt slot (Maps.mem_values_iff.2 ⟨p, hslot⟩), hnext.imp_right ?_⟩
  rintro ⟨slot, hslot, hsequence⟩
  obtain ⟨p, hp⟩ := Maps.mem_values_iff.1 hslot
  exact ⟨p, slot, hp, hsequence⟩

/-- A registry is what a store tells: about each proposal of which the store keeps a record, what
its records tell, and nothing that does not follow from it. -/
structure ReadFrom (r : Registry) (c : Contents) : Prop where
  mem_iff : ∀ p, p ∈ r.slots ↔ p ∈ c.proposals
  slot {p : ProposalId} {slot : Slot} (h : r.slots[p]? = some slot) : slot.ReadFrom p (c.folder p)
  restored_eq : r.restored = r

end Registry

theorem Slot.ReadFrom.id_eq {slot : Slot} {p : ProposalId} {f : Folder} (h : slot.ReadFrom p f) :
    slot.proposal.id = p := by
  obtain ⟨record, -, hrecord⟩ := h.proposal
  exact hrecord.id_eq

theorem Slot.ReadFrom.tells {slot : Slot} {p : ProposalId} {f : Folder} (h : slot.ReadFrom p f) :
    f.Tells slot.proposal := by
  obtain ⟨record, hrecord, hread⟩ := h.proposal
  exact ⟨record, hrecord, hread.decode_eq⟩

theorem Slot.ReadFrom.hasSuccessor {slot : Slot} {p : ProposalId} {f : Folder}
    (h : slot.ReadFrom p f) : HasSuccessor slot.proposal.sequence := by
  obtain ⟨record, -, hrecord⟩ := h.proposal
  exact hrecord.hasSuccessor

theorem Registry.ReadFrom.isFiled {r : Registry} {c : Contents} (h : r.ReadFrom c) : r.IsFiled :=
  fun _ _ hslot => (h.slot hslot).id_eq

/-! ### Recoveries from any store -/

namespace Recovery

variable {σ : Type} [Store σ] [LawfulStore σ] {s : σ} {c : Contents} {rules : Rules}

/-- What is read of all the proposals is put together. -/
theorem registry_eq_ok_iff {r : Registry} (hkeeps : LawfulStore.Keeps s c) :
    registry s c.proposals.toList = .ok r ↔ ∃ slots : List Slot,
      List.Forall₂ (fun e slot => slot.ReadFrom e.1 (c.folder e.1)) c.proposals.toList slots ∧
        r = .ofSlots slots := by
  refine foldlM_eq_ok_iff.trans (exists_congr fun slots => and_congr_left fun _ => ?_)
  exact forall₂_congr fun e he slot => slot_eq_ok_iff hkeeps (Maps.mem_toList_iff.1 he)

omit [Store σ] [LawfulStore σ] in
/-- What is put together is what the store tells, and all that the store tells is put together. -/
theorem exists_ofSlots_iff {r : Registry} : (∃ slots : List Slot,
    List.Forall₂ (fun e slot => slot.ReadFrom e.1 (c.folder e.1)) c.proposals.toList slots ∧
      r = .ofSlots slots) ↔ r.ReadFrom c := by
  constructor
  · rintro ⟨slots, hslots, rfl⟩
    have hids : c.proposals.keys = slots.map fun slot => slot.proposal.id := by
      rw [← Std.ExtTreeMap.map_fst_toList_eq_keys]
      exact Forall₂.map_eq hslots fun e slot h => h.id_eq.symm
    have hget (p : ProposalId) (slot : Slot) : (Registry.ofSlots slots).slots[p]? = some slot ↔
        slot ∈ slots ∧ slot.proposal.id = p := by
      rw [Registry.slots_ofSlots]
      refine (Maps.getElem?_foldl_insert_eq_some_iff fun a ha b hb hid => ?_).trans ?_
      · have hnodup : (slots.map fun slot => slot.proposal.id).Nodup :=
          hids ▸ Std.ExtTreeMap.nodup_keys
        exact List.inj_on_of_nodup_map hnodup ha hb hid
      · constructor
        · rintro ⟨_, hslot, hid, rfl⟩
          exact ⟨hslot, hid⟩
        · exact fun ⟨hslot, hid⟩ => ⟨slot, hslot, hid, rfl⟩
    have htoList : (Registry.ofSlots slots).slots.toList =
        slots.map fun slot => (slot.proposal.id, slot) := by
      refine Maps.toList_eq ?_ fun p slot => ?_
      · rw [List.pairwise_map, ← List.pairwise_map (f := fun slot : Slot => slot.proposal.id)
          (R := fun p q => compare p q = .lt), ← hids]
        exact Std.ExtTreeMap.ordered_keys
      · rw [hget, List.mem_map]
        constructor
        · rintro ⟨_, hslot, heq⟩
          cases heq
          exact ⟨hslot, rfl⟩
        · rintro ⟨hslot, rfl⟩
          exact ⟨slot, hslot, rfl⟩
    refine ⟨fun p => ?_, fun {p slot} hslot => ?_, ?_⟩
    · rw [← Std.ExtTreeMap.mem_keys (t := c.proposals), hids, List.mem_map, Maps.mem_iff]
      exact exists_congr fun slot => (hget p slot)
    · obtain ⟨hslot, hid⟩ := (hget p slot).1 hslot
      obtain ⟨e, -, hread⟩ := Forall₂.exists_right hslots hslot
      rw [← hid, hread.id_eq]
      exact hread
    · rw [Registry.restored_eq, Maps.values_eq, htoList, List.map_map]
      exact congrArg _ (List.map_id _)
  · intro h
    refine ⟨r.slots.values, ?_, by rw [← Registry.restored_eq, h.restored_eq]⟩
    have hkeys : c.proposals.toList.map Prod.fst = r.slots.toList.map Prod.fst := by
      rw [Std.ExtTreeMap.map_fst_toList_eq_keys, Std.ExtTreeMap.map_fst_toList_eq_keys]
      refine Maps.keys_eq Std.ExtTreeMap.ordered_keys fun p => ?_
      rw [Std.ExtTreeMap.mem_keys, h.mem_iff]
    rw [Maps.values_eq, List.forall₂_map_right_iff]
    refine forall₂_of_map_eq hkeys fun e _ e' he' hfst => ?_
    rw [hfst]
    exact h.slot (Maps.mem_toList_iff.1 he')

/-- **What a recovery comes to:** the engine of what the store tells. -/
theorem recover_eq_ok_iff {e : Engine} (hkeeps : LawfulStore.Keeps s c) :
    Engine.recover rules s = .ok e ↔ e.rules = rules ∧ e.registry.ReadFrom c := by
  simp only [Engine.recover, mapError_eq_ok_iff, LawfulStore.proposals_eq hkeeps, ok_bind,
    bind_eq_ok_iff, pure_eq_ok_iff, registry_eq_ok_iff hkeeps, exists_ofSlots_iff]
  constructor
  · rintro ⟨r, hr, rfl⟩
    exact ⟨rfl, hr⟩
  · rintro ⟨rfl, hr⟩
    exact ⟨_, hr, rfl⟩

/-- **A recovery succeeds if and only if the records of every proposal are in order.** -/
theorem exists_recover_iff (hkeeps : LawfulStore.Keeps s c) :
    (∃ e, Engine.recover rules s = .ok e) ↔
      ∀ p ∈ c.proposals, ∃ slot : Slot, slot.ReadFrom p (c.folder p) := by
  have hlist : (∃ r : Registry, r.ReadFrom c) ↔
      ∀ e ∈ c.proposals.toList, ∃ slot : Slot, slot.ReadFrom e.1 (c.folder e.1) := by
    simp only [← exists_ofSlots_iff, ← exists_forall₂_iff]
    constructor
    · rintro ⟨r, slots, hslots, -⟩
      exact ⟨slots, hslots⟩
    · rintro ⟨slots, hslots⟩
      exact ⟨_, slots, hslots, rfl⟩
  simp only [recover_eq_ok_iff hkeeps]
  constructor
  · rintro ⟨e, -, he⟩ p hp
    obtain ⟨record, hrecord⟩ := Maps.mem_iff.1 hp
    exact hlist.1 ⟨_, he⟩ (p, record) (Maps.mem_toList_iff.2 hrecord)
  · intro h
    obtain ⟨r, hr⟩ := hlist.2 fun e he => h e.1 (Maps.mem_iff.2 ⟨e.2, Maps.mem_toList_iff.1 he⟩)
    exact ⟨⟨rules, r⟩, rfl, hr⟩

end Recovery

/-! ### Recoveries where memory and store agree -/

section Mirrored

variable {σ : Type} [Store σ] [LawfulStore σ] {s : σ} {c : Contents} {p : ProposalId} {f : Folder}
  {slot slot' : Slot} {r : Registry}

omit [Store σ] [LawfulStore σ]

/-- A proposal is read as it is in memory. -/
theorem Slot.Mirrors.eq_of_readFrom (h : slot.Mirrors f) (hread : slot'.ReadFrom p f) :
    slot' = slot := by
  obtain ⟨record, hrecord, hproposal⟩ := hread.proposal
  obtain ⟨records, hlogged⟩ := h.logged
  obtain ⟨records', hrecords', hbook⟩ := hread.ballots
  have hproposal : slot'.proposal = slot.proposal := by
    have hdecode := hproposal.decode_eq
    rw [Option.some.inj (hrecord.symm.trans h.proposal_eq),
      (Format.proposal_roundTrips h.fits).decode] at hdecode
    exact (Except.ok.inj hdecode).symm
  have hrecords : records' = records := by
    rw [hlogged.ballots_eq, List.forall₂_map_left_iff] at hrecords'
    have := Forall₂.map_eq (f := id) (g := id) hrecords' fun r r' hr => by
      have hdecode := hr.decode_eq
      rw [(Format.ballotRecord_roundTrips r).decode] at hdecode
      exact Except.ok.inj hdecode
    simpa using this.symm
  have hbook : slot'.book = slot.book := by rw [hbook, hrecords, hlogged.book_eq]
  cases slot
  cases slot'
  exact Slot.mk.injEq _ _ _ _ ▸ ⟨hproposal, hbook⟩

/-- A proposal in memory is read, unless its result names another one. -/
theorem Slot.Mirrors.readFrom_iff (h : slot.Mirrors f) (hid : slot.proposal.id = p) :
    slot.ReadFrom p f ↔ slot.proposal.IsConsistent := by
  constructor
  · intro hread
    obtain ⟨record, -, hrecord⟩ := hread.proposal
    exact hrecord.isConsistent
  · intro hconsistent
    obtain ⟨records, hlogged⟩ := h.logged
    refine ⟨⟨_, h.proposal_eq, (Format.proposal_roundTrips h.fits).decode, hid, hconsistent,
      h.hasSuccessor⟩, fun t ht => ?_, records, ?_, hlogged.book_eq⟩
    · exact ⟨_, by rw [h.tally_eq, ht]; rfl, (Format.tally_roundTrips t).decode⟩
    · rw [hlogged.ballots_eq, List.forall₂_map_left_iff, List.forall₂_same]
      exact fun r hr => ⟨(Format.ballotRecord_roundTrips r).decode, rfl, hlogged.hasSuccessor r hr,
        hlogged.not_self r hr⟩

end Mirrored

namespace Registry

/-- The status and the result of every proposal agree. -/
def IsConsistent (r : Registry) : Prop :=
  ∀ (p : ProposalId) (slot : Slot), r.slots[p]? = some slot → slot.proposal.IsConsistent

namespace Mirrored

variable {σ : Type} [Store σ] [LawfulStore σ] {s : σ} {c : Contents} {r : Registry}

omit [Store σ] [LawfulStore σ]

theorem isFiled (h : r.Mirrored c) : r.IsFiled := fun _ _ hslot => h.id_eq hslot

theorem slots_restored (h : r.Mirrored c) : r.restored.slots = r.slots :=
  Registry.slots_restored h.isFiled

/-- The store keeps records of the proposals that are in memory. -/
theorem mem_iff (h : r.Mirrored c) (p : ProposalId) : p ∈ r.slots ↔ p ∈ c.proposals := by
  rw [Maps.mem_iff, Maps.mem_iff]
  constructor
  · exact fun ⟨slot, hslot⟩ => ⟨_, (h.mirrors hslot).proposal_eq⟩
  · rintro ⟨record, hrecord⟩
    cases hslot : r.slots[p]? with
    | none =>
      have : c.proposals[p]? = none := congrArg Folder.proposal (h.absent hslot)
      rw [hrecord] at this
      cases this
    | some slot => exact ⟨slot, rfl⟩

/-- The store lists the records of the proposals that are in memory. -/
theorem proposals_eq (h : r.Mirrored c) : c.proposals.toList =
    r.slots.toList.map fun e => (e.1, Format.proposal.write e.2.proposal) := by
  refine Maps.toList_eq ?_ fun p record => ?_
  · rw [List.pairwise_map]
    exact Maps.sorted_toList r.slots
  · rw [List.mem_map]
    constructor
    · rintro ⟨e, he, heq⟩
      cases heq
      exact (h.mirrors (Maps.mem_toList_iff.1 he)).proposal_eq
    · intro hrecord
      obtain ⟨slot, hslot⟩ := Maps.mem_iff.1 ((h.mem_iff p).2 (Maps.mem_iff.2 ⟨record, hrecord⟩))
      have : c.proposals[p]? = some _ := (h.mirrors hslot).proposal_eq
      exact ⟨(p, slot), Maps.mem_toList_iff.2 hslot,
        congrArg _ (Option.some.inj (this.symm.trans hrecord))⟩

/-- What the store tells is what is restored from memory, if every proposal is consistent. -/
theorem readFrom_iff (h : r.Mirrored c) {r' : Registry} :
    r'.ReadFrom c ↔ r.IsConsistent ∧ r' = r.restored := by
  constructor
  · intro hread
    have hslots : r'.slots = r.slots := by
      refine Std.ExtTreeMap.ext_getElem? fun p => Option.ext fun slot => ?_
      constructor
      · intro hslot
        obtain ⟨slot', hslot'⟩ := Maps.mem_iff.1 ((h.mem_iff p).2
          ((hread.mem_iff p).1 (Maps.mem_iff.2 ⟨slot, hslot⟩)))
        rw [hslot', (h.mirrors hslot').eq_of_readFrom (hread.slot hslot)]
      · intro hslot
        obtain ⟨slot', hslot'⟩ := Maps.mem_iff.1 ((hread.mem_iff p).2
          ((h.mem_iff p).1 (Maps.mem_iff.2 ⟨slot, hslot⟩)))
        rw [hslot', (h.mirrors hslot).eq_of_readFrom (hread.slot hslot')]
    refine ⟨fun p slot hslot => ?_, ?_⟩
    · exact ((h.mirrors hslot).readFrom_iff (h.id_eq hslot)).1 (hread.slot (hslots ▸ hslot))
    · rw [← hread.restored_eq, restored, hslots]
      rfl
  · rintro ⟨hconsistent, rfl⟩
    have hslots := h.slots_restored
    refine ⟨fun p => hslots ▸ h.mem_iff p, fun {p slot} hslot => ?_, ?_⟩
    · rw [hslots] at hslot
      exact ((h.mirrors hslot).readFrom_iff (h.id_eq hslot)).2 (hconsistent p slot hslot)
    · rw [restored, hslots]
      rfl

variable [Store σ] [LawfulStore σ]

/-- **A recovery succeeds if and only if every proposal is consistent,** and what is recovered is
what is restored from memory. -/
theorem recover_eq_ok_iff (h : r.Mirrored c) (hkeeps : LawfulStore.Keeps s c) {rules : Rules}
    {e : Engine} : Engine.recover rules s = .ok e ↔
      r.IsConsistent ∧ e = ⟨rules, r.restored⟩ := by
  rw [Recovery.recover_eq_ok_iff hkeeps, h.readFrom_iff]
  constructor
  · rintro ⟨rfl, hconsistent, hr⟩
    exact ⟨hconsistent, by rw [← hr]⟩
  · rintro ⟨hconsistent, rfl⟩
    exact ⟨rfl, hconsistent, rfl⟩

omit [Store σ] [LawfulStore σ]

theorem order_restored (h : r.Mirrored c) : r.restored.order = r.order := by
  refine Std.ExtTreeMap.ext_getElem? fun n => Option.ext fun p => ?_
  rw [order_restored_iff h.isFiled, h.order_iff]
  refine exists_congr fun slot => and_congr_right fun hslot => and_iff_left_iff_imp.2 ?_
  rintro rfl q slot' hq hsequence hne
  exact absurd (h.eq_of_sequence_eq hq hslot hsequence) hne

/-- The order is taken up behind the last place in use. -/
theorem nextSequence_restored (h : r.Mirrored c) :
    (∀ (p : ProposalId) (slot : Slot), r.slots[p]? = some slot →
      slot.proposal.sequence.toNat < r.restored.nextSequence.toNat) ∧
      (r.restored.nextSequence = 0 ∨ ∃ (p : ProposalId) (slot : Slot),
        r.slots[p]? = some slot ∧
          r.restored.nextSequence.toNat = slot.proposal.sequence.toNat + 1) :=
  Registry.nextSequence_restored fun _ _ hslot => (h.mirrors hslot).hasSuccessor

theorem nextSequence_restored_le (h : r.Mirrored c) :
    r.restored.nextSequence.toNat ≤ r.nextSequence.toNat := by
  rcases h.nextSequence_restored.2 with hzero | ⟨p, slot, hslot, hsequence⟩
  · rw [hzero]
    exact Nat.zero_le _
  · rw [hsequence]
    exact h.lt_nextSequence hslot

/-- What is recovered agrees with the store again. -/
theorem restored (h : r.Mirrored c) : r.restored.Mirrored c where
  id_eq hslot := h.id_eq (h.slots_restored ▸ hslot)
  mirrors hslot := h.mirrors (h.slots_restored ▸ hslot)
  absent hslot := h.absent (h.slots_restored ▸ hslot)
  order_iff := by
    rw [h.order_restored, h.slots_restored]
    exact h.order_iff
  lt_nextSequence hslot := h.nextSequence_restored.1 _ _ (h.slots_restored ▸ hslot)

end Mirrored

end Registry

end DelegatedVoting
