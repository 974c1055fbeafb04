import DelegatedVoting.Proofs.Recovery

/-!
# What a recovery lets in

Whatever bytes a store keeps, a recovery either fails or comes to an engine that is fit to work:
every stored proposal is known under its name, its histories tell the stored ballots and nothing
else, and the counters stand behind all the numbers that have been taken. It fails only if some
record is out of order.

* `Proposal.IsSettled`, `Folder.IsInOrder`: what is asked of the records of a proposal;
* `Ballot.Book.Shows`, `Slot.Shows`: what is known about a proposal is what its records tell;
* `Ballot.Book.shows_of_readFrom`: a book shows the ballots that it is read from;
* `Recovery.recover_spec`: when a recovery fails, and what it comes to otherwise.
-/

namespace DelegatedVoting

open Packed Recovery

variable {p : ProposalId} {f : Folder} {slot : Slot}

/-! ### Records in order -/

/-- A proposal is open and has no result, or it is finalized with a result that names it and that is
kept as its tally. -/
def Proposal.IsSettled (q : Proposal) (tally : Option Bytes) : Prop :=
  (q.status = .open ∧ q.result = none) ∨
    (q.status = .finalized ∧ ∃ t record, q.result = some t ∧ t.proposal = q.id ∧
      tally = some record ∧ Format.tally.decode record = .ok t)

/-- The records of a proposal are in order. -/
structure Folder.IsInOrder (f : Folder) (p : ProposalId) : Prop where
  proposal : ∃ q, f.Tells q ∧ q.id = p ∧ q.IsSettled f.tally ∧ q.sequence.toNat < 2 ^ 64 - 1
  ballots : ∀ seq record, f.ballots[seq]? = some record →
    ∃ r, Format.ballotRecord.decode record = .ok r ∧ r.action.seq = seq ∧
      seq.toNat < 2 ^ 64 - 1 ∧ ¬ r.action.IsSelfDelegation

theorem hasSuccessor_iff {n : UInt64} : HasSuccessor n ↔ n.toNat < 2 ^ 64 - 1 := by
  unfold HasSuccessor UInt64.size
  omega

theorem Proposal.isConsistent_iff {q : Proposal} : q.IsConsistent ↔
    (q.status = .open ∧ q.result = none) ∨
      (q.status = .finalized ∧ ∃ t, q.result = some t ∧ t.proposal = q.id) := by
  unfold Proposal.IsConsistent
  cases q.status <;> cases q.result <;> simp

/-- A proposal is settled if its status and its result agree, and the result with the tally. -/
theorem Proposal.isSettled_iff {q : Proposal} {tally : Option Bytes} :
    q.IsSettled tally ↔ q.IsConsistent ∧ ∀ t, q.result = some t →
      ∃ record, tally = some record ∧ Format.tally.decode record = .ok t := by
  rw [Proposal.isConsistent_iff]
  constructor
  · rintro (⟨hopen, hnone⟩ | ⟨hstatus, t, record, hresult, hid, htally⟩)
    · exact ⟨.inl ⟨hopen, hnone⟩, fun t ht => by rw [hnone] at ht; cases ht⟩
    · refine ⟨.inr ⟨hstatus, t, hresult, hid⟩, fun t' ht' => ?_⟩
      obtain rfl := Option.some.inj (hresult.symm.trans ht')
      exact ⟨record, htally⟩
  · rintro ⟨hopen | ⟨hstatus, t, hresult, hid⟩, htally⟩
    · exact .inl hopen
    · obtain ⟨record, hrecord⟩ := htally t hresult
      exact .inr ⟨hstatus, t, record, hresult, hid, hrecord⟩

/-- **The records of a proposal are read if and only if they are in order.** -/
theorem Folder.isInOrder_iff : f.IsInOrder p ↔ ∃ slot : Slot, slot.ReadFrom p f := by
  constructor
  · rintro ⟨⟨q, ⟨record, hrecord, hdecode⟩, hid, hsettled, hroom⟩, hballots⟩
    obtain ⟨hconsistent, htally⟩ := Proposal.isSettled_iff.1 hsettled
    obtain ⟨records, hrecords⟩ := exists_forall₂_iff.2
      (fun e he => hballots e.1 e.2 (Maps.mem_toList_iff.1 he))
    refine ⟨⟨q, .ofRecords records⟩, ⟨record, hrecord, hdecode, hid, hconsistent,
      hasSuccessor_iff.2 hroom⟩, htally, records, hrecords.imp ?_, rfl⟩
    exact fun e r ⟨hdecode, hseq, hroom, hself⟩ => ⟨hdecode, hseq, hasSuccessor_iff.2 hroom, hself⟩
  · rintro ⟨slot, ⟨record, hrecord, hq⟩, htally, records, hrecords, -⟩
    refine ⟨⟨slot.proposal, ⟨record, hrecord, hq.decode_eq⟩, hq.id_eq,
      Proposal.isSettled_iff.2 ⟨hq.isConsistent, htally⟩, hasSuccessor_iff.1 hq.hasSuccessor⟩, ?_⟩
    intro seq record hrecord
    have hmem : (seq, record) ∈ f.ballots.toList := Maps.mem_toList_iff.2 hrecord
    obtain ⟨r, -, hr⟩ := Forall₂.exists_left hrecords hmem
    exact ⟨r, hr.decode_eq, hr.seq_eq, hasSuccessor_iff.1 hr.hasSuccessor, hr.not_self⟩

/-! ### What is known -/

namespace Ballot.Book

/-- The book shows the ballots that are kept under their numbers, and nothing else. -/
structure Shows (b : Book) (ballots : Std.ExtTreeMap UInt64 Bytes) : Prop where
  /-- Every ballot stands once in the history of its voter, under its number. -/
  once {seq : UInt64} {record : Bytes} (h : ballots[seq]? = some record) :
    ∃ r, Format.ballotRecord.decode record = .ok r ∧ r.action.seq = seq ∧
      (b.trail r.action.voter).count r = 1
  /-- A history holds ballots of its voter only, all of them from the store. -/
  kept {v : ParticipantId} {r : Record} (h : r ∈ b.trail v) : r.action.voter = v ∧
    ∃ record, ballots[r.action.seq]? = some record ∧ Format.ballotRecord.decode record = .ok r
  ascends (v : ParticipantId) : (b.trail v).Pairwise fun r r' => r.action.seq < r'.action.seq
  not_self {v : ParticipantId} {r : Record} (h : r ∈ b.trail v) : ¬ r.action.IsSelfDelegation
  /-- The action of a voter that counts is the one with the largest number. -/
  current?_eq_some_iff {v : ParticipantId} {a : Action} : b.current? v = some a ↔
    (∃ r ∈ b.trail v, r.action = a) ∧ ∀ r ∈ b.trail v, r.action.seq ≤ a.seq
  lt_nextSeq {seq : UInt64} (h : seq ∈ ballots) : seq < b.nextSeq

/-- **A book shows the ballots that it is read from.** -/
theorem shows_of_readFrom {ballots : Std.ExtTreeMap UInt64 Bytes} {records : List Record}
    (h : List.Forall₂ (fun e r => r.ReadFrom e.1 e.2) ballots.toList records) :
    (ofRecords records).Shows ballots := by
  have hread {r : Record} (hr : r ∈ records) :
      ∃ record, ballots[r.action.seq]? = some record ∧ r.ReadFrom r.action.seq record := by
    obtain ⟨e, he, hread⟩ := Forall₂.exists_right h hr
    rw [hread.seq_eq]
    exact ⟨e.2, Maps.mem_toList_iff.1 he, hread⟩
  -- the ballots are read in the order of their numbers, so their numbers ascend
  have hnumbers : ballots.keys = records.map fun r => r.action.seq := by
    rw [← Std.ExtTreeMap.map_fst_toList_eq_keys]
    exact Forall₂.map_eq h fun e r hread => hread.seq_eq.symm
  have hlt : records.Pairwise fun r r' => r.action.seq < r'.action.seq := by
    have hkeys := Std.ExtTreeMap.ordered_keys (t := ballots)
    rw [hnumbers, List.pairwise_map] at hkeys
    exact hkeys.imp Std.compare_eq_lt.1
  have htrail := trail_ofRecords hlt
  have hascends (v : ParticipantId) :
      ((ofRecords records).trail v).Pairwise fun r r' => r.action.seq < r'.action.seq := by
    rw [htrail]
    exact hlt.filter _
  refine ⟨fun {seq record} hrecord => ?_, fun {v r} hr => ?_, hascends, fun {v r} hr => ?_,
    fun {v a} => (ordered_ofRecords records).current?_eq_some_iff (hascends v),
    fun {seq} hseq => ?_⟩
  · have hmem : (seq, record) ∈ ballots.toList := Maps.mem_toList_iff.2 hrecord
    obtain ⟨r, hr, hread⟩ := Forall₂.exists_left h hmem
    refine ⟨r, hread.decode_eq, hread.seq_eq, List.count_eq_one_of_mem ?_ ?_⟩
    · exact (hascends _).imp fun hlt heq => absurd (heq ▸ hlt) (UInt64.lt_irrefl _)
    · exact mem_trail_ofRecords.2 ⟨hr, rfl⟩
  · obtain ⟨hmem, hvoter⟩ := mem_trail_ofRecords.1 hr
    obtain ⟨record, hrecord, hread⟩ := hread hmem
    exact ⟨hvoter, record, hrecord, hread.decode_eq⟩
  · obtain ⟨_, _, hread⟩ := hread (mem_trail_ofRecords.1 hr).1
    exact hread.not_self
  · rw [← Std.ExtTreeMap.mem_keys, hnumbers] at hseq
    obtain ⟨r, hr, rfl⟩ := List.mem_map.1 hseq
    have hroom : ∀ r ∈ records, HasSuccessor r.action.seq := fun r hr => by
      obtain ⟨_, _, hread⟩ := hread hr
      exact hread.hasSuccessor
    exact UInt64.lt_iff_toNat_lt.2 (lt_nextSeq_ofRecords hroom r hr)

end Ballot.Book

/-- What is known about a proposal is what its records tell. -/
structure Slot.Shows (slot : Slot) (p : ProposalId) (f : Folder) : Prop where
  tells : f.Tells slot.proposal
  id_eq : slot.proposal.id = p
  isSettled : slot.proposal.IsSettled f.tally
  book : slot.book.Shows f.ballots

theorem Slot.ReadFrom.shows (h : slot.ReadFrom p f) : slot.Shows p f := by
  have htells := h.tells
  obtain ⟨⟨record, hrecord, hq⟩, htally, records, hrecords, hbook⟩ := h
  exact ⟨htells, hq.id_eq, Proposal.isSettled_iff.2 ⟨hq.isConsistent, htally⟩,
    hbook ▸ Ballot.Book.shows_of_readFrom hrecords⟩

/-- The next proposal comes behind all those that are read. -/
theorem Registry.ReadFrom.lt_nextSequence {r : Registry} {c : Contents} (h : r.ReadFrom c)
    (hslot : r.slots[p]? = some slot) : slot.proposal.sequence < r.nextSequence := by
  have hlt := (nextSequence_restored fun _ _ hslot => (h.slot hslot).hasSuccessor).1 p slot hslot
  rw [h.restored_eq] at hlt
  exact UInt64.lt_iff_toNat_lt.2 hlt

/-! ### What a recovery comes to -/

namespace Recovery

variable {σ : Type} [Store σ] [LawfulStore σ] {s : σ} {c : Contents}

/-- **What a recovery lets in.** Whatever a store keeps, a recovery leaves it alone. The recovery
fails if and only if the records of some proposal are out of order. Otherwise it comes to an engine
that knows the stored proposals, and about each of them what its records tell; the next proposal
comes behind all of them. -/
theorem recover_spec (hkeeps : LawfulStore.Keeps s c) (rules : Rules) :
    (∀ engine now, ((⟨engine, s, now⟩ : Session σ).step (.restart rules)).store = s) ∧
      ((∃ x, Engine.recover rules s = .error x) ↔
        ∃ p ∈ c.proposals, ¬ (c.folder p).IsInOrder p) ∧
      ∀ e, Engine.recover rules s = .ok e → e.rules = rules ∧
        (∀ p ∈ c.proposals, ∃ slot, e.slot p = .ok slot ∧ slot.Shows p (c.folder p) ∧
          slot.proposal.sequence < e.registry.nextSequence) ∧
        ∀ p, p ∉ c.proposals → e.slot p = .error (.notFound p) := by
  refine ⟨fun engine now => ?_, ?_, fun e he => ?_⟩
  · rw [Session.step, Session.respond]
    dsimp only
    split <;> rfl
  · have hok : (∃ e, Engine.recover rules s = .ok e) ↔ _ := exists_recover_iff hkeeps
    simp only [← Folder.isInOrder_iff] at hok
    have herror : (∃ x, Engine.recover rules s = .error x) ↔
        ¬ ∃ e, Engine.recover rules s = .ok e := by
      cases Engine.recover rules s <;> simp
    rw [herror, hok]
    simp only [not_forall, exists_prop]
  · obtain ⟨hrules, hread⟩ := (recover_eq_ok_iff hkeeps).1 he
    refine ⟨hrules, fun p hp => ?_, fun p hp => Engine.slot_eq_error ?_⟩
    · obtain ⟨slot, hslot⟩ := Maps.mem_iff.1 ((hread.mem_iff p).2 hp)
      exact ⟨slot, Engine.slot_eq_ok.2 hslot, (hread.slot hslot).shows, hread.lt_nextSequence hslot⟩
    · rw [Maps.getElem?_eq_none_iff, hread.mem_iff]
      exact hp

/-- A ballot is kept under the number 7. If it says so, it is let in, and the next one has a larger
number; if it says 6, the recovery fails. -/
theorem recover_spec_of_misfiled_ballot :
    let p : ProposalId := ⟨.replicate 16 1, rfl⟩
    let store (seq : UInt64) : MemoryStore :=
      { MemoryStore.empty with
        proposals := Std.ExtTreeMap.empty.insert p
          (Format.proposal.write ⟨p, 3, 1, "tea", .open, 0, none⟩)
        ballots := Std.ExtTreeMap.empty.insert p
          (Std.ExtTreeMap.empty.insert 7 (Format.ballotRecord.write ⟨.vote 2 true seq, 0⟩)) }
    (∃ e slot, Engine.recover {} (store 7) = .ok e ∧ e.slot p = .ok slot ∧
      (slot.book.trail 2).count ⟨.vote 2 true 7, 0⟩ = 1 ∧ 7 < slot.book.nextSeq ∧
        3 < e.registry.nextSequence) ∧
      ∃ x, Engine.recover {} (store 6) = .error x := by
  intro p store
  constructor
  · have hok : (Engine.recover {} (store 7)).isOk := by decide +kernel
    cases hrecover : Engine.recover {} (store 7) with
    | error x =>
      rw [hrecover] at hok
      cases hok
    | ok e =>
      obtain ⟨-, hknown, -⟩ := (recover_spec (s := store 7) rfl {}).2.2 e hrecover
      obtain ⟨slot, hslot, hshows, hlt⟩ := hknown p (by decide +kernel)
      refine ⟨e, slot, rfl, hslot, ?_, hshows.book.lt_nextSeq (by decide +kernel), ?_⟩
      · have hballot : ((store 7).contents.folder p).ballots[(7 : UInt64)]? =
            some (Format.ballotRecord.write ⟨.vote 2 true 7, 0⟩) := by decide +kernel
        obtain ⟨r, hdecode, -, hcount⟩ := hshows.book.once hballot
        rw [(Format.ballotRecord_roundTrips _).decode] at hdecode
        cases hdecode
        exact hcount
      · obtain ⟨record, hrecord, hdecode⟩ := hshows.tells
        obtain rfl : Format.proposal.write ⟨p, 3, 1, "tea", .open, 0, none⟩ = record :=
          Option.some.inj (Eq.trans (by decide +kernel) hrecord)
        rw [(Format.proposal_roundTrips (by decide)).decode] at hdecode
        rwa [← Except.ok.inj hdecode] at hlt
  · refine (recover_spec (s := store 6) rfl {}).2.1.2 ⟨p, by decide +kernel, fun horder => ?_⟩
    obtain ⟨r, hdecode, hseq, -⟩ := horder.ballots 7
      (Format.ballotRecord.write ⟨.vote 2 true 6, 0⟩) (by decide +kernel)
    rw [(Format.ballotRecord_roundTrips _).decode] at hdecode
    cases hdecode
    cases hseq

end Recovery

end DelegatedVoting
