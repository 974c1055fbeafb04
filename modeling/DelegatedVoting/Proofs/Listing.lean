import DelegatedVoting.Proofs.Recovery

/-!
# The listing of a recovered engine

The order of creation has one place for each number. A recovery does not ask whether stored
proposals share a number: if they do, only the last of them in the order of their names has the
place, and the others are known by their names but not listed.

* `Registry.IsPlaced`: the order of creation names known proposals at their places;
* `Registry.IsPlaced.pairwise_list`, `length_list`: a listing ascends, and is counted;
* `Registry.ReadFrom.mem_list_iff`: what a recovered engine lists;
* `Engine.ListsAll`, `Recovery.listing_spec`: everything is listed if and only if no two stored
  proposals share a number.
-/

namespace DelegatedVoting

open Packed

/-! ### Listings -/

namespace Registry

variable {r : Registry} {c : Contents} {p : ProposalId} {q : Proposal}

/-- The order of creation names proposals that are known, at the places that they name. -/
def IsPlaced (r : Registry) : Prop :=
  ∀ (n : UInt64) (p : ProposalId), r.order[n]? = some p →
    ∃ slot, r.slots[p]? = some slot ∧ slot.proposal.sequence = n

theorem list_eq (r : Registry) :
    r.list = r.order.toList.filterMap fun e => r.slots[e.2]?.map Slot.proposal := by
  rw [list, Maps.values_eq, List.filterMap_map]
  rfl

theorem mem_list : q ∈ r.list ↔ ∃ (n : UInt64) (p : ProposalId) (slot : Slot),
    r.order[n]? = some p ∧ r.slots[p]? = some slot ∧ slot.proposal = q := by
  rw [list_eq, List.mem_filterMap]
  constructor
  · rintro ⟨e, he, hq⟩
    obtain ⟨slot, hslot, rfl⟩ := Option.map_eq_some_iff.1 hq
    exact ⟨e.1, e.2, slot, Maps.mem_toList_iff.1 he, hslot, rfl⟩
  · rintro ⟨n, p, slot, hp, hslot, rfl⟩
    exact ⟨(n, p), Maps.mem_toList_iff.2 hp, Option.map_eq_some_iff.2 ⟨slot, hslot, rfl⟩⟩

/-- Proposals are listed in the order of their places. -/
theorem IsPlaced.pairwise_list (h : r.IsPlaced) :
    r.list.Pairwise fun q q' => q.sequence < q'.sequence := by
  have hsequence {e : UInt64 × ProposalId} (he : e ∈ r.order.toList) {q : Proposal}
      (hq : r.slots[e.2]?.map Slot.proposal = some q) : q.sequence = e.1 := by
    obtain ⟨slot, hslot, rfl⟩ := Option.map_eq_some_iff.1 hq
    obtain ⟨slot', hslot', hplace⟩ := h e.1 e.2 (Maps.mem_toList_iff.1 he)
    rw [Option.some.inj (hslot.symm.trans hslot'), hplace]
  rw [list_eq, List.pairwise_filterMap]
  refine (Maps.sorted_toList r.order).imp_of_mem fun {e e'} he he' hlt q hq q' hq' => ?_
  rw [hsequence he hq, hsequence he' hq']
  exact Std.compare_eq_lt.1 hlt

/-- Proposals that are listed have places of their own. -/
theorem IsPlaced.nodup_places (h : r.IsPlaced) : (r.list.map Proposal.sequence).Nodup :=
  (List.pairwise_map.2 h.pairwise_list).nodup

/-- Every place that is taken is listed. -/
theorem IsPlaced.length_list (h : r.IsPlaced) : r.list.length = r.count := by
  have hknown : ∀ e ∈ r.order.toList, (r.slots[e.2]?.map Slot.proposal).isSome := fun e he => by
    obtain ⟨slot, hslot, -⟩ := h e.1 e.2 (Maps.mem_toList_iff.1 he)
    simp [hslot]
  rw [list_eq, List.filterMap_length_eq_length.2 hknown, Std.ExtTreeMap.length_toList]
  rfl

/-! ### What is read -/

theorem ReadFrom.tells_iff (h : r.ReadFrom c) :
    (c.folder p).Tells q ↔ ∃ slot, r.slots[p]? = some slot ∧ slot.proposal = q := by
  constructor
  · rintro ⟨record, hrecord, hdecode⟩
    obtain ⟨slot, hslot⟩ := Maps.mem_iff.1 ((h.mem_iff p).2 (Maps.mem_iff.2 ⟨record, hrecord⟩))
    exact ⟨slot, hslot, (h.slot hslot).tells.eq ⟨record, hrecord, hdecode⟩⟩
  · rintro ⟨slot, hslot, rfl⟩
    exact (h.slot hslot).tells

theorem ReadFrom.id_eq_of_tells (h : r.ReadFrom c) (htells : (c.folder p).Tells q) : q.id = p := by
  obtain ⟨slot, hslot, rfl⟩ := h.tells_iff.1 htells
  exact h.isFiled p slot hslot

theorem ReadFrom.isPlaced (h : r.ReadFrom c) : r.IsPlaced := by
  intro n p hp
  rw [← h.restored_eq, order_restored_iff h.isFiled] at hp
  obtain ⟨slot, hslot, hsequence, -⟩ := hp
  exact ⟨slot, hslot, hsequence⟩

/-- **What is listed after a recovery:** of the stored proposals that share a place, the last one in
the order of their names. -/
theorem ReadFrom.mem_list_iff (h : r.ReadFrom c) : q ∈ r.list ↔
    ∃ p, (c.folder p).Tells q ∧ ∀ p' q', (c.folder p').Tells q' → q'.sequence = q.sequence →
      p' ≠ p → compare p' p = .lt := by
  have horder {n : UInt64} {p : ProposalId} := order_restored_iff h.isFiled (n := n) (p := p)
  rw [h.restored_eq] at horder
  simp only [mem_list, h.tells_iff, horder]
  constructor
  · rintro ⟨n, p, slot, ⟨slot', hslot', rfl, hlast⟩, hslot, rfl⟩
    obtain rfl := Option.some.inj (hslot.symm.trans hslot')
    refine ⟨p, ⟨slot, hslot, rfl⟩, ?_⟩
    rintro p' _ ⟨slot', hslot', rfl⟩
    exact hlast p' slot' hslot'
  · rintro ⟨p, ⟨slot, hslot, rfl⟩, hlast⟩
    exact ⟨_, p, slot, ⟨slot, hslot, rfl, fun p' slot' hslot' =>
      hlast p' slot'.proposal ⟨slot', hslot', rfl⟩⟩, hslot, rfl⟩

end Registry

/-! ### What is known -/

namespace Engine

variable {σ : Type} [Store σ] {e : Engine} {store : σ} {now : Timestamp} {p : ProposalId}
  {v : ParticipantId} {isYes : Bool}

omit [Store σ] in
theorem exists_proposal_iff : (∃ q, e.proposal p = .ok q) ↔ p ∈ e.registry.slots := by
  rw [Maps.mem_iff]
  constructor
  · rintro ⟨q, hq⟩
    obtain ⟨slot, hslot, -⟩ := map_eq_ok hq
    exact ⟨slot, slot_eq_ok.1 hslot⟩
  · rintro ⟨slot, hslot⟩
    refine ⟨slot.proposal, ?_⟩
    rw [proposal, slot_eq_ok.2 hslot]
    rfl

/-- A vote is refused for want of a proposal if and only if the proposal is not known. -/
theorem vote_eq_notFound_iff :
    (e.vote store now p v isYes).answer = .error (.notFound p) ↔ p ∉ e.registry.slots := by
  have hspec := e.accept_spec store now p (.vote v isYes)
  unfold vote
  generalize e.accept store now p (.vote v isYes) = call at hspec ⊢
  rw [Maps.mem_iff]
  cases hspec with
  | notFound hnone => simp [refuse, hnone]
  | closed slot hslot => simp [refuse, hslot]
  | store slot x hslot => simp [refuse, hslot]
  | done slot s' hslot => simp [hslot]

/-- A finalization is refused for want of a proposal if and only if the proposal is not known. -/
theorem finalize_eq_notFound_iff :
    (e.finalize store now p v).answer = .error (.notFound p) ↔ p ∉ e.registry.slots := by
  have hspec := e.finalize_spec store now p v
  generalize e.finalize store now p v = call at hspec ⊢
  rw [Maps.mem_iff]
  cases hspec with
  | notFound hnone => simp [refuse, hnone]
  | closed slot hslot => simp [refuse, hslot]
  | notProposer slot hslot => simp [refuse, hslot]
  | store slot x hslot => simp [refuse, hslot]
  | done slot s' hslot => simp [hslot]

end Engine

/-! ### Whether everything is listed -/

section ListsAll

variable {σ : Type} [Store σ] [LawfulStore σ] {s : σ} {c : Contents} {rules : Rules} {e : Engine}

/-- Every stored proposal is listed once, in the order of creation, and is counted. A proposal can
be fetched, voted on and finalized if and only if it is listed. -/
structure Engine.ListsAll (e : Engine) (s : σ) (c : Contents) : Prop where
  once : ∀ p q, (c.folder p).Tells q → e.list.count q = 1
  ascends : e.list.Pairwise fun q q' => q.sequence < q'.sequence
  count_eq : e.count = c.proposals.size
  fetched_iff : ∀ p, (∃ q, e.proposal p = .ok q) ↔ ∃ q ∈ e.list, q.id = p
  voted_iff : ∀ now p v isYes,
    (e.vote s now p v isYes).answer ≠ .error (.notFound p) ↔ ∃ q ∈ e.list, q.id = p
  finalized_iff : ∀ now p v,
    (e.finalize s now p v).answer ≠ .error (.notFound p) ↔ ∃ q ∈ e.list, q.id = p

/-- No two stored proposals share a place in the order of creation. -/
def Contents.PlacesDiffer (c : Contents) : Prop :=
  ∀ p p' q q', (c.folder p).Tells q → (c.folder p').Tells q' → q.sequence = q'.sequence → p = p'

omit [Store σ] [LawfulStore σ] in
/-- If no two proposals share a place, then a proposal is listed if and only if it is stored. -/
theorem Registry.ReadFrom.mem_list_iff_tells {r : Registry} (h : r.ReadFrom c)
    (hdiffer : c.PlacesDiffer) {q : Proposal} : q ∈ r.list ↔ ∃ p, (c.folder p).Tells q := by
  rw [h.mem_list_iff]
  refine exists_congr fun p => and_iff_left_of_imp fun htells p' q' htells' hsequence hne => ?_
  exact absurd (hdiffer p' p q' q htells' htells hsequence) hne

omit [Store σ] [LawfulStore σ] in
/-- If no two proposals share a place, then as many are listed as are stored. -/
theorem Registry.ReadFrom.count_eq {r : Registry} (h : r.ReadFrom c) (hdiffer : c.PlacesDiffer) :
    r.count = c.proposals.size := by
  have hid {q : Proposal} (hq : q ∈ r.list) :
      ∃ slot, r.slots[q.id]? = some slot ∧ slot.proposal = q := by
    obtain ⟨p, htells⟩ := (h.mem_list_iff_tells hdiffer).1 hq
    rw [h.id_eq_of_tells htells]
    exact h.tells_iff.1 htells
  have hnodup : (r.list.map Proposal.id).Nodup := by
    refine List.Nodup.map_on (fun q hq q' hq' heq => ?_) h.isPlaced.nodup_places.of_map
    obtain ⟨slot, hslot, rfl⟩ := hid hq
    obtain ⟨slot', hslot', rfl⟩ := hid hq'
    rw [heq] at hslot
    rw [Option.some.inj (hslot.symm.trans hslot')]
  have hperm : (r.list.map Proposal.id).Perm c.proposals.keys := by
    refine (List.perm_ext_iff_of_nodup hnodup Std.ExtTreeMap.nodup_keys).2 fun p => ?_
    rw [Std.ExtTreeMap.mem_keys, ← h.mem_iff, Maps.mem_iff, List.mem_map]
    constructor
    · rintro ⟨q, hq, rfl⟩
      obtain ⟨slot, hslot, -⟩ := hid hq
      exact ⟨slot, hslot⟩
    · rintro ⟨slot, hslot⟩
      refine ⟨slot.proposal, (h.mem_list_iff_tells hdiffer).2 ⟨p, ?_⟩, h.isFiled p slot hslot⟩
      exact h.tells_iff.2 ⟨slot, hslot, rfl⟩
  rw [← h.isPlaced.length_list, ← Std.ExtTreeMap.length_keys, ← hperm.length_eq, List.length_map]

/-- Whatever is stored is listed if and only if it is known. -/
theorem Registry.ReadFrom.exists_mem_list_iff {r : Registry} (h : r.ReadFrom c)
    (hdiffer : c.PlacesDiffer) {p : ProposalId} : (∃ q ∈ r.list, q.id = p) ↔ p ∈ r.slots := by
  simp only [h.mem_list_iff_tells hdiffer, h.tells_iff, Maps.mem_iff]
  constructor
  · rintro ⟨_, ⟨p', slot, hslot, rfl⟩, rfl⟩
    exact ⟨slot, by rwa [h.isFiled p' slot hslot]⟩
  · rintro ⟨slot, hslot⟩
    exact ⟨slot.proposal, ⟨p, slot, hslot, rfl⟩, h.isFiled p slot hslot⟩

omit [LawfulStore σ] in
/-- If everything is listed, then no two stored proposals share a place. -/
theorem Engine.ListsAll.placesDiffer (hall : e.ListsAll s c) (h : e.registry.ReadFrom c) :
    c.PlacesDiffer := by
  intro p p' q q' hq hq' heq
  have hmem {p : ProposalId} {q : Proposal} (hq : (c.folder p).Tells q) : q ∈ e.list :=
    List.count_pos_iff.1 (by rw [hall.once p q hq]; exact Nat.one_pos)
  -- two proposals that are listed at the same place are the same
  obtain rfl := List.inj_on_of_nodup_map h.isPlaced.nodup_places (hmem hq) (hmem hq') heq
  rw [← h.id_eq_of_tells hq, h.id_eq_of_tells hq']

omit [LawfulStore σ] in
/-- If no two stored proposals share a place, then everything is listed. -/
theorem Registry.ReadFrom.listsAll (h : e.registry.ReadFrom c) (hdiffer : c.PlacesDiffer) :
    e.ListsAll s c where
  once p q hq := List.count_eq_one_of_mem h.isPlaced.nodup_places.of_map
    ((h.mem_list_iff_tells hdiffer).2 ⟨p, hq⟩)
  ascends := h.isPlaced.pairwise_list
  count_eq := h.count_eq hdiffer
  fetched_iff p := Engine.exists_proposal_iff.trans (h.exists_mem_list_iff hdiffer).symm
  voted_iff now p v isYes := by
    rw [ne_eq, Engine.vote_eq_notFound_iff, not_not]
    exact (h.exists_mem_list_iff hdiffer).symm
  finalized_iff now p v := by
    rw [ne_eq, Engine.finalize_eq_notFound_iff, not_not]
    exact (h.exists_mem_list_iff hdiffer).symm

namespace Recovery

/-- **What a recovered engine lists.** Its listing ascends and is counted, and holds of the stored
proposals that share a place the last one in the order of their names, while every stored proposal
is known. So everything is listed if and only if no two stored proposals share a place. -/
theorem listing_spec (hkeeps : LawfulStore.Keeps s c) (he : Engine.recover rules s = .ok e) :
    e.list.Pairwise (fun q q' => q.sequence < q'.sequence) ∧ e.count = e.list.length ∧
      (∀ q, q ∈ e.list ↔ ∃ p, (c.folder p).Tells q ∧ ∀ p' q', (c.folder p').Tells q' →
        q'.sequence = q.sequence → p' ≠ p → compare p' p = .lt) ∧
      (∀ p, (∃ q, e.proposal p = .ok q) ↔ p ∈ c.proposals) ∧
      (e.ListsAll s c ↔ c.PlacesDiffer) := by
  obtain ⟨-, h⟩ := (recover_eq_ok_iff hkeeps).1 he
  exact ⟨h.isPlaced.pairwise_list, h.isPlaced.length_list.symm, fun q => h.mem_list_iff,
    fun p => by rw [Engine.exists_proposal_iff, h.mem_iff],
    fun hall => hall.placesDiffer h, h.listsAll⟩

/-- Two stored proposals at different places are both listed. -/
theorem listing_spec_of_two_places :
    let p : ProposalId := ⟨.replicate 16 1, rfl⟩
    let q : ProposalId := ⟨.replicate 16 2, rfl⟩
    let tea : Proposal := ⟨p, 7, 1, "tea", .open, 0, none⟩
    let cake : Proposal := ⟨q, 3, 1, "cake", .open, 0, none⟩
    let store : MemoryStore :=
      { MemoryStore.empty with
        proposals := (Std.ExtTreeMap.empty.insert p (Format.proposal.write tea)).insert q
          (Format.proposal.write cake) }
    ∃ e, Engine.recover {} store = .ok e ∧ e.ListsAll store store.contents := by
  intro p q tea cake store
  have htells (p' : ProposalId) (q' : Proposal) (h : (store.contents.folder p').Tells q') :
      p' = q ∧ q' = cake ∨ p' = p ∧ q' = tea := by
    obtain ⟨record, hrecord, hdecode⟩ := h
    replace hrecord : store.proposals[p']? = some record := hrecord
    rw [Maps.getElem?_insert, Maps.getElem?_insert] at hrecord
    split at hrecord
    · cases hrecord
      rw [(Format.proposal_roundTrips (by decide)).decode] at hdecode
      exact .inl ⟨Eq.symm ‹_›, (Except.ok.inj hdecode).symm⟩
    · split at hrecord
      · cases hrecord
        rw [(Format.proposal_roundTrips (by decide)).decode] at hdecode
        exact .inr ⟨Eq.symm ‹_›, (Except.ok.inj hdecode).symm⟩
      · cases hrecord.symm.trans Std.ExtTreeMap.getElem?_empty
  have hdiffer : store.contents.PlacesDiffer := by
    intro p' p'' q' q'' h' h'' hsequence
    rcases htells p' q' h' with ⟨rfl, rfl⟩ | ⟨rfl, rfl⟩ <;>
      rcases htells p'' q'' h'' with ⟨rfl, rfl⟩ | ⟨rfl, rfl⟩ <;> first | rfl | cases hsequence
  let e : Engine := ⟨{}, Registry.ofSlots [⟨tea, .empty⟩, ⟨cake, .empty⟩]⟩
  have hrecover : Engine.recover {} store = .ok e := by decide +kernel
  exact ⟨e, hrecover, (listing_spec (s := store) rfl hrecover).2.2.2.2.2 hdiffer⟩

/-- Of two stored proposals at the same place, one is known and can be voted on but is neither
listed nor counted. -/
theorem not_listsAll_of_shared_place :
    let p : ProposalId := ⟨.replicate 16 1, rfl⟩
    let q : ProposalId := ⟨.replicate 16 2, rfl⟩
    let tea : Proposal := ⟨p, 0, 1, "tea", .open, 0, none⟩
    let cake : Proposal := ⟨q, 0, 1, "cake", .open, 0, none⟩
    let store : MemoryStore :=
      { MemoryStore.empty with
        proposals := (Std.ExtTreeMap.empty.insert p (Format.proposal.write tea)).insert q
          (Format.proposal.write cake) }
    ∃ e, Engine.recover {} store = .ok e ∧ e.list = [cake] ∧ e.count = 1 ∧
      store.contents.proposals.size = 2 ∧ e.proposal p = .ok tea ∧
        (e.vote store 0 p 2 true).answer = .ok (.vote 2 true 1) ∧
          ¬ e.ListsAll store store.contents := by
  intro p q tea cake store
  let e : Engine := ⟨{}, Registry.ofSlots [⟨tea, .empty⟩, ⟨cake, .empty⟩]⟩
  have hcount : e.count = 1 := by decide +kernel
  have hsize : store.contents.proposals.size = 2 := by decide +kernel
  refine ⟨e, by decide +kernel, by decide +kernel, hcount, hsize, by decide +kernel,
    by decide +kernel, fun hall => ?_⟩
  have := hall.count_eq
  rw [hcount, hsize] at this
  cases this

end Recovery

end ListsAll

end DelegatedVoting
