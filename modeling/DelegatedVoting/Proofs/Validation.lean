import DelegatedVoting.Proofs.Mirror

/-!
# What a recovery reads

A recovery reads the records that a store keeps of each proposal, and reads them only if they are in
order: each record is one, says where it is kept, and leaves room for what comes after it; the
status and the result of the proposal agree with each other and with the tally.

* `Ballot.Record.ReadFrom`, `Proposal.ReadFrom`, `Slot.ReadFrom`: what records in order tell;
* `Recovery.ballot_eq_ok_iff`, `proposal_eq_ok_iff`, `result_eq_ok_iff`, `slot_eq_ok_iff`: records
  are read if and only if they are in order;
* `Slot.ReadFrom.new`, `ballot`, `close`: records that are written are in order, if numbers have not
  run out.
-/

namespace DelegatedVoting

open Packed Recovery

/-! ### One record -/

/-- The ballot that the record under a number tells. -/
structure Ballot.Record.ReadFrom (r : Ballot.Record) (seq : UInt64) (record : Bytes) : Prop where
  decode_eq : Format.ballotRecord.decode record = .ok r
  seq_eq : r.action.seq = seq
  hasSuccessor : HasSuccessor seq
  not_self : ¬ r.action.IsSelfDelegation

/-- The proposal that the record under a name tells. -/
structure Proposal.ReadFrom (q : Proposal) (p : ProposalId) (record : Bytes) : Prop where
  decode_eq : Format.proposal.decode record = .ok q
  id_eq : q.id = p
  isConsistent : q.IsConsistent
  hasSuccessor : HasSuccessor q.sequence

namespace Recovery

variable {σ : Type} [Store σ] [LawfulStore σ] {s : σ} {c : Contents} {p : ProposalId}
  {record : Bytes} {seq : UInt64}

theorem unpack_eq_ok_iff {α : Type} {f : Format α} {a : α} :
    unpack f record = .ok a ↔ f.decode record = .ok a := mapError_eq_ok_iff

theorem ballot_eq_ok_iff {r : Ballot.Record} :
    ballot p seq record = .ok r ↔ r.ReadFrom seq record := by
  simp only [ballot, bind_eq_ok_iff, unpack_eq_ok_iff, ite_throw_eq_ok_iff, ne_eq, not_not,
    pure_eq_ok_iff]
  constructor
  · rintro ⟨_, hdecode, hseq, hroom, hself, rfl⟩
    exact ⟨hdecode, hseq, hroom, hself⟩
  · rintro ⟨hdecode, hseq, hroom, hself⟩
    exact ⟨r, hdecode, hseq, hroom, hself, rfl⟩

theorem proposal_eq_ok_iff {q : Proposal} :
    proposal p record = .ok q ↔ q.ReadFrom p record := by
  simp only [proposal, bind_eq_ok_iff, unpack_eq_ok_iff, ite_throw_eq_ok_iff, not_not,
    pure_eq_ok_iff]
  constructor
  · rintro ⟨_, hdecode, ⟨hid, hconsistent⟩, hroom, rfl⟩
    exact ⟨hdecode, hid, hconsistent, hroom⟩
  · rintro ⟨hdecode, hid, hconsistent, hroom⟩
    exact ⟨q, hdecode, ⟨hid, hconsistent⟩, hroom, rfl⟩

/-- The result of a proposal is the one that the tally tells, if there is a result. -/
theorem result_eq_ok_iff {q : Proposal} (hkeeps : LawfulStore.Keeps s c) :
    result p s q = .ok () ↔ ∀ t, q.result = some t →
      ∃ record, c.tallies p = some record ∧ Format.tally.decode record = .ok t := by
  unfold result
  cases q.result with
  | none => simp
  | some t =>
    dsimp only
    rw [LawfulStore.tally_eq p hkeeps, ok_bind]
    cases c.tallies p with
    | none => exact iff_of_false nofun fun h => nomatch h t rfl
    | some record =>
      simp only [bind_eq_ok_iff, unpack_eq_ok_iff, Option.some.injEq, exists_eq_left', forall_eq']
      constructor
      · rintro ⟨t', hdecode, heq⟩
        split at heq
        · rename_i ht
          exact ht ▸ hdecode
        · cases heq
      · exact fun hdecode => ⟨t, hdecode, if_pos rfl⟩

end Recovery

/-! ### One proposal -/

/-- The proposal that its record tells. -/
def Folder.Tells (f : Folder) (q : Proposal) : Prop :=
  ∃ record, f.proposal = some record ∧ Format.proposal.decode record = .ok q

theorem Folder.Tells.eq {f : Folder} {q q' : Proposal} (h : f.Tells q) (h' : f.Tells q') :
    q = q' := by
  obtain ⟨record, hrecord, hdecode⟩ := h
  obtain ⟨record', hrecord', hdecode'⟩ := h'
  obtain rfl := Option.some.inj (hrecord.symm.trans hrecord')
  exact Except.ok.inj (hdecode.symm.trans hdecode')

/-- The statement of a proposal that is read is not too long to be packed. -/
theorem Folder.Tells.fits {f : Folder} {q : Proposal} (h : f.Tells q) :
    q.statement.utf8ByteSize < UInt64.size := by
  obtain ⟨record, -, hdecode⟩ := h
  exact Format.fits_of_decode hdecode

/-- What the records that a store keeps of a proposal tell. -/
structure Slot.ReadFrom (slot : Slot) (p : ProposalId) (f : Folder) : Prop where
  proposal : ∃ record, f.proposal = some record ∧ slot.proposal.ReadFrom p record
  tally : ∀ t, slot.proposal.result = some t →
    ∃ record, f.tally = some record ∧ Format.tally.decode record = .ok t
  ballots : ∃ records : List Ballot.Record,
    List.Forall₂ (fun e r => r.ReadFrom e.1 e.2) f.ballots.toList records ∧
      slot.book = .ofRecords records

namespace Recovery

variable {σ : Type} [Store σ] [LawfulStore σ] {s : σ} {c : Contents} {p : ProposalId}
  {record : Bytes}

/-- **The records of a proposal are read if and only if they are in order.** -/
theorem slot_eq_ok_iff {slot : Slot} (hkeeps : LawfulStore.Keeps s c)
    (hrecord : c.proposals[p]? = some record) :
    Recovery.slot s p record = .ok slot ↔ slot.ReadFrom p (c.folder p) := by
  simp only [Recovery.slot, bind_eq_ok_iff, proposal_eq_ok_iff, result_eq_ok_iff hkeeps,
    LawfulStore.ballots_eq p hkeeps, mapM_eq_ok_iff, ballot_eq_ok_iff]
  constructor
  · rintro ⟨q, hq, _, htally, _, hballots, records, hrecords, heq⟩
    cases hballots
    cases heq
    exact ⟨⟨record, hrecord, hq⟩, htally, records, hrecords, rfl⟩
  · rintro ⟨⟨record', hrecord', hq⟩, htally, records, hrecords, hbook⟩
    obtain rfl : record' = record := Option.some.inj (hrecord'.symm.trans hrecord)
    exact ⟨_, hq, (), htally, _, rfl, records, hrecords, congrArg _ (congrArg _ hbook.symm)⟩

end Recovery

/-! ### Writes that leave records in order -/

namespace Slot.ReadFrom

variable {slot : Slot} {p : ProposalId} {f : Folder} {record tally : Bytes}

/-- A new proposal has records in order if its place has a successor. -/
theorem new {q : Proposal} (hdecode : Format.proposal.decode record = .ok q) (hopen : q.IsOpen)
    (hresult : q.result = none) (hroom : HasSuccessor q.sequence) :
    Slot.ReadFrom ⟨q, .empty⟩ q.id ⟨some record, ∅, none⟩ where
  proposal := by
    refine ⟨record, rfl, hdecode, rfl, ?_, hroom⟩
    unfold Proposal.IsOpen at hopen
    simp [Proposal.IsConsistent, hopen, hresult]
  tally t ht := by
    rw [hresult] at ht
    cases ht
  ballots := ⟨[], .nil, rfl⟩

/-- A ballot under the next number is in order if this number has a successor. -/
theorem ballot (h : slot.ReadFrom p f) {r : Ballot.Record}
    (hdecode : Format.ballotRecord.decode record = .ok r)
    (hseq : r.action.seq = slot.book.nextSeq) (hroom : HasSuccessor r.action.seq)
    (hself : ¬ r.action.IsSelfDelegation) :
    Slot.ReadFrom { slot with book := slot.book.apply r } p
      { f with ballots := f.ballots.insert r.action.seq record } where
  proposal := h.proposal
  tally := h.tally
  ballots := by
    obtain ⟨records, hrecords, hbook⟩ := h.ballots
    -- the next number is behind all the others, so the ballot is read last
    have hlast : ∀ seq ∈ f.ballots, compare seq r.action.seq = .lt := fun seq hmem => by
      obtain ⟨old, hold⟩ := Maps.mem_iff.1 hmem
      have he : (seq, old) ∈ f.ballots.toList := Maps.mem_toList_iff.2 hold
      obtain ⟨r', hr', hread⟩ := Forall₂.exists_left hrecords he
      have hrooms : ∀ r ∈ records, HasSuccessor r.action.seq := fun r hr => by
        obtain ⟨e, -, hread⟩ := Forall₂.exists_right hrecords hr
        exact hread.seq_eq ▸ hread.hasSuccessor
      have hlt := Ballot.Book.lt_nextSeq_ofRecords hrooms r' hr'
      rw [hread.seq_eq, ← hbook, ← hseq] at hlt
      exact Std.compare_eq_lt.2 (UInt64.lt_iff_toNat_lt.2 hlt)
    refine ⟨records ++ [r], ?_, by rw [Ballot.Book.ofRecords_append, hbook]⟩
    rw [Maps.toList_insert_last _ hlast]
    exact List.rel_append hrecords (.cons ⟨hdecode, rfl, hroom, hself⟩ .nil)

/-- A proposal that is closed with a result that names it has records in order. -/
theorem close (h : slot.ReadFrom p f) {result : Tally}
    (hdecode : Format.proposal.decode record = .ok (slot.proposal.finalize result))
    (htally : Format.tally.decode tally = .ok result) (hid : result.proposal = p) :
    Slot.ReadFrom { slot with proposal := slot.proposal.finalize result } p
      { f with proposal := some record, tally := some tally } where
  proposal := by
    obtain ⟨old, -, hold⟩ := h.proposal
    exact ⟨record, rfl, hdecode, hold.id_eq, hid.trans hold.id_eq.symm, hold.hasSuccessor⟩
  tally t ht := ⟨tally, rfl, htally.trans (congrArg Except.ok (Option.some.inj ht))⟩
  ballots := h.ballots

end Slot.ReadFrom

end DelegatedVoting
