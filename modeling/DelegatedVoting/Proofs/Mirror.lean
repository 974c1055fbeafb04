import Mathlib.Logic.Function.Basic
import DelegatedVoting.Proofs.Books
import DelegatedVoting.Proofs.Moves
import DelegatedVoting.Proofs.Packed

/-!
# Memory and store agree

What is in memory about a proposal is in the store as well: its record, its ballots under their
numbers, and its tally. Every change keeps this, provided that numbers do not run out and that the
name of a new proposal is new.

* `Folder`, `Contents.folder`: what a store keeps of one proposal;
* `Ballot.Logged`: the book of a list of records, and the ballots that keep the records;
* `Slot.Mirrors`, `Registry.Mirrored`: memory and store agree about one proposal, and about all;
* `Registry.Mirrored.enter`, `ballot`, `close`: every change keeps the agreement.
-/

namespace DelegatedVoting

open Packed Recovery

/-! ### Numbers -/

theorem toNat_max (m n : UInt64) : (max m n).toNat = max m.toNat n.toNat := by
  rw [UInt64.max_def]
  by_cases h : m ≤ n
  · rw [if_pos h]
    exact (Nat.max_eq_right (UInt64.le_iff_toNat_le.1 h)).symm
  · rw [if_neg h]
    rw [UInt64.le_iff_toNat_le] at h
    omega

theorem toNat_succ {n : UInt64} (h : HasSuccessor n) : (n + 1).toNat = n.toNat + 1 := by
  rw [UInt64.toNat_add]
  exact Nat.mod_eq_of_lt h

namespace Ballot.Book

theorem toNat_after {n : UInt64} (h : HasSuccessor n) : (after n).toNat = n.toNat + 1 := by
  have hsucc := toNat_succ h
  unfold after
  split
  · rename_i hzero
    rw [hzero] at hsucc
    cases hsucc
  · exact hsucc

theorem one_le_nextSeq (b : Book) : 1 ≤ b.nextSeq.toNat := by
  rw [nextSeq, toNat_max]
  exact Nat.le_max_right _ _

theorem toNat_nextSeq_apply (b : Book) (r : Record) :
    (b.apply r).nextSeq.toNat = max b.nextSeq.toNat (after r.action.seq).toNat := by
  have := b.one_le_nextSeq
  rw [nextSeq, toNat_max, apply, toNat_max]
  exact Nat.max_eq_left (by show 1 ≤ _; omega)

/-- The next number is behind the numbers of all the records. -/
theorem lt_nextSeq_ofRecords {records : List Record}
    (h : ∀ r ∈ records, HasSuccessor r.action.seq) :
    ∀ r ∈ records, r.action.seq.toNat < (ofRecords records).nextSeq.toNat := by
  induction records using List.reverseRecOn with
  | nil => simp
  | append_singleton records last ih =>
    intro r hr
    rw [ofRecords_append, toNat_nextSeq_apply]
    rcases List.mem_append.1 hr with hr | hr
    · have := ih (fun r hr => h r (List.mem_append_left _ hr)) r hr
      omega
    · obtain rfl := List.mem_singleton.1 hr
      have := toNat_after (h r (by simp))
      omega

end Ballot.Book

/-! ### Ballots -/

namespace Ballot

/-- The book of a list of records, and the ballots that keep the records. -/
structure Logged (book : Book) (ballots : Std.ExtTreeMap UInt64 Bytes) (records : List Record) :
    Prop where
  book_eq : book = .ofRecords records
  ballots_eq :
    ballots.toList = records.map fun r => (r.action.seq, Format.ballotRecord.write r)
  hasSuccessor : ∀ r ∈ records, HasSuccessor r.action.seq
  not_self : ∀ r ∈ records, ¬ r.action.IsSelfDelegation

namespace Logged

variable {book : Book} {ballots : Std.ExtTreeMap UInt64 Bytes} {records : List Record}

theorem empty : Logged .empty ∅ [] where
  book_eq := rfl
  ballots_eq := rfl
  hasSuccessor := by simp
  not_self := by simp

/-- The numbers that are taken are smaller than the next one. -/
theorem lt_nextSeq (h : Logged book ballots records) {seq : UInt64} (hseq : seq ∈ ballots) :
    seq < book.nextSeq := by
  obtain ⟨record, hrecord⟩ := Maps.mem_iff.1 hseq
  have hmem : (seq, record) ∈ ballots.toList := Maps.mem_toList_iff.2 hrecord
  rw [h.ballots_eq] at hmem
  obtain ⟨r, hr, heq⟩ := List.mem_map.1 hmem
  have := Book.lt_nextSeq_ofRecords h.hasSuccessor r hr
  rw [← h.book_eq] at this
  obtain rfl : r.action.seq = seq := congrArg Prod.fst heq
  exact UInt64.lt_iff_toNat_lt.2 this

/-- A ballot is logged under the next number. -/
theorem apply (h : Logged book ballots records) {r : Record} (hseq : r.action.seq = book.nextSeq)
    (hroom : HasSuccessor book.nextSeq) (hself : ¬ r.action.IsSelfDelegation) :
    Logged (book.apply r) (ballots.insert r.action.seq (Format.ballotRecord.write r))
      (records ++ [r]) where
  book_eq := by rw [Book.ofRecords_append, h.book_eq]
  ballots_eq := by
    -- the next number is behind all the others, so the ballot is listed last
    have hlast : ∀ seq ∈ ballots, compare seq r.action.seq = .lt := fun seq hmem => by
      rw [hseq]
      exact Std.compare_eq_lt.2 (h.lt_nextSeq hmem)
    rw [Maps.toList_insert_last _ hlast, h.ballots_eq, List.map_append]
    rfl
  hasSuccessor := by
    intro r' hr'
    rcases List.mem_append.1 hr' with hr' | hr'
    · exact h.hasSuccessor r' hr'
    · obtain rfl := List.mem_singleton.1 hr'
      exact hseq ▸ hroom
  not_self := by
    intro r' hr'
    rcases List.mem_append.1 hr' with hr' | hr'
    · exact h.not_self r' hr'
    · obtain rfl := List.mem_singleton.1 hr'
      exact hself

end Logged

end Ballot

/-! ### What a store keeps of one proposal -/

/-- What a store keeps of one proposal. -/
structure Folder where
  proposal : Option Bytes
  ballots : Std.ExtTreeMap UInt64 Bytes
  tally : Option Bytes

/-- Nothing is kept. -/
def Folder.empty : Folder := ⟨none, ∅, none⟩

namespace Contents

/-- What a store keeps of a proposal. -/
def folder (c : Contents) (p : ProposalId) : Folder :=
  ⟨c.proposals[p]?, c.ballots p, c.tallies p⟩

variable {c : Contents} {p q : ProposalId}

theorem folder_empty (p : ProposalId) : Contents.empty.folder p = .empty := by
  simp [folder, Contents.empty, Folder.empty]

@[simp] theorem folder_putProposal (record : Bytes) :
    (c.putProposal p record).folder p = { c.folder p with proposal := some record } := by
  simp [folder, putProposal]

@[simp] theorem folder_putBallot (seq : UInt64) (record : Bytes) :
    (c.putBallot p seq record).folder p =
      { c.folder p with ballots := (c.folder p).ballots.insert seq record } := by
  simp [folder, putBallot]

@[simp] theorem folder_putFinalization (proposal tally : Bytes) :
    (c.putFinalization p proposal tally).folder p =
      { c.folder p with proposal := some proposal, tally := some tally } := by
  simp [folder, putFinalization]

theorem folder_putProposal_of_ne (h : q ≠ p) (record : Bytes) :
    (c.putProposal p record).folder q = c.folder q := by
  simp [folder, putProposal, Maps.getElem?_insert, Ne.symm h]

theorem folder_putBallot_of_ne (h : q ≠ p) (seq : UInt64) (record : Bytes) :
    (c.putBallot p seq record).folder q = c.folder q := by
  simp [folder, putBallot, Function.update_of_ne h]

theorem folder_putFinalization_of_ne (h : q ≠ p) (proposal tally : Bytes) :
    (c.putFinalization p proposal tally).folder q = c.folder q := by
  simp [folder, putFinalization, Maps.getElem?_insert, Ne.symm h, Function.update_of_ne h]

end Contents

/-! ### Memory and store agree -/

/-- What is in memory about a proposal is what the store keeps of it. -/
structure Slot.Mirrors (slot : Slot) (f : Folder) : Prop where
  proposal_eq : f.proposal = some (Format.proposal.write slot.proposal)
  tally_eq : f.tally = slot.proposal.result.map Format.tally.write
  logged : ∃ records, Ballot.Logged slot.book f.ballots records
  fits : slot.proposal.statement.utf8ByteSize < UInt64.size
  isOpen_iff : slot.proposal.IsOpen ↔ slot.proposal.result = none
  hasSuccessor : HasSuccessor slot.proposal.sequence

/-- What is in memory is what the store keeps. -/
structure Registry.Mirrored (r : Registry) (c : Contents) : Prop where
  id_eq {p : ProposalId} {slot : Slot} (h : r.slots[p]? = some slot) : slot.proposal.id = p
  mirrors {p : ProposalId} {slot : Slot} (h : r.slots[p]? = some slot) : slot.Mirrors (c.folder p)
  absent {p : ProposalId} (h : r.slots[p]? = none) : c.folder p = .empty
  order_iff {n : UInt64} {p : ProposalId} :
    r.order[n]? = some p ↔ ∃ slot, r.slots[p]? = some slot ∧ slot.proposal.sequence = n
  lt_nextSequence {p : ProposalId} {slot : Slot} (h : r.slots[p]? = some slot) :
    slot.proposal.sequence.toNat < r.nextSequence.toNat

variable {slot : Slot} {f : Folder} {r : Registry} {c c' : Contents} {p : ProposalId}

theorem Slot.Mirrors.new {p : Proposal} (hopen : p.IsOpen) (hresult : p.result = none)
    (hfits : p.statement.utf8ByteSize < UInt64.size) (hroom : HasSuccessor p.sequence) :
    Slot.Mirrors ⟨p, .empty⟩ ⟨some (Format.proposal.write p), ∅, none⟩ where
  proposal_eq := rfl
  tally_eq := by simp [hresult]
  logged := ⟨[], .empty⟩
  fits := hfits
  isOpen_iff := by simp [hopen, hresult]
  hasSuccessor := hroom

theorem Slot.Mirrors.ballot (h : slot.Mirrors f) {record : Ballot.Record}
    (hseq : record.action.seq = slot.book.nextSeq) (hroom : HasSuccessor slot.book.nextSeq)
    (hself : ¬ record.action.IsSelfDelegation) :
    Slot.Mirrors { slot with book := slot.book.apply record }
      { f with
        ballots := f.ballots.insert record.action.seq (Format.ballotRecord.write record) } where
  proposal_eq := h.proposal_eq
  tally_eq := h.tally_eq
  logged := by
    obtain ⟨records, hlogged⟩ := h.logged
    exact ⟨_, hlogged.apply hseq hroom hself⟩
  fits := h.fits
  isOpen_iff := h.isOpen_iff
  hasSuccessor := h.hasSuccessor

theorem Slot.Mirrors.close (h : slot.Mirrors f) (result : Tally) :
    Slot.Mirrors { slot with proposal := slot.proposal.finalize result }
      { f with
        proposal := some (Format.proposal.write (slot.proposal.finalize result))
        tally := some (Format.tally.write result) } where
  proposal_eq := rfl
  tally_eq := rfl
  logged := h.logged
  fits := h.fits
  isOpen_iff := by simp [Proposal.IsOpen, Proposal.finalize]
  hasSuccessor := h.hasSuccessor

namespace Registry

theorem getElem?_slots_enter (r : Registry) (p : Proposal) (q : ProposalId) :
    (r.burn.add p).slots[q]? = if p.id = q then some ⟨p, .empty⟩ else r.slots[q]? :=
  Maps.getElem?_insert _ _ _ _

theorem getElem?_slots_update (r : Registry) (p : ProposalId) (slot : Slot) (q : ProposalId) :
    (r.update p slot).slots[q]? = if p = q then some slot else r.slots[q]? :=
  Maps.getElem?_insert _ _ _ _

end Registry

namespace Engine

variable {p q : ProposalId}

theorem slot_update_self (e : Engine) (p : ProposalId) (slot : Slot) :
    Engine.slot { e with registry := e.registry.update p slot } p = .ok slot := by
  rw [slot_eq_ok, Registry.getElem?_slots_update, if_pos rfl]

theorem slot_update_of_ne (e : Engine) (slot : Slot) (h : q ≠ p) :
    Engine.slot { e with registry := e.registry.update p slot } q = e.slot q := by
  unfold Engine.slot
  rw [Registry.getElem?_slots_update, if_neg h.symm]

theorem slot_enter_self (e : Engine) (new : Proposal) :
    Engine.slot { e with registry := e.registry.burn.add new } new.id = .ok ⟨new, .empty⟩ := by
  rw [slot_eq_ok, Registry.getElem?_slots_enter, if_pos rfl]

theorem slot_enter_of_ne (e : Engine) {new : Proposal} (h : q ≠ new.id) :
    Engine.slot { e with registry := e.registry.burn.add new } q = e.slot q := by
  unfold Engine.slot
  rw [Registry.getElem?_slots_enter, if_neg h.symm]

end Engine

namespace Registry.Mirrored

theorem empty : Registry.empty.Mirrored .empty where
  id_eq h := by simp [Registry.empty] at h
  mirrors h := by simp [Registry.empty] at h
  absent _ := Contents.folder_empty _
  order_iff := by simp [Registry.empty]
  lt_nextSequence h := by simp [Registry.empty] at h

/-- Two proposals do not share a place in the order of creation. -/
theorem eq_of_sequence_eq (h : r.Mirrored c) {q : ProposalId} {slot' : Slot}
    (hp : r.slots[p]? = some slot) (hq : r.slots[q]? = some slot')
    (hsequence : slot.proposal.sequence = slot'.proposal.sequence) : p = q := by
  have hp' := h.order_iff.2 ⟨slot, hp, rfl⟩
  have hq' := h.order_iff.2 ⟨slot', hq, hsequence.symm⟩
  exact Option.some.inj (hp'.symm.trans hq')

/-- The number of the next proposal is taken. -/
theorem burn (h : r.Mirrored c) (hroom : HasSuccessor r.nextSequence) : r.burn.Mirrored c where
  id_eq := h.id_eq
  mirrors := h.mirrors
  absent := h.absent
  order_iff := h.order_iff
  lt_nextSequence hslot := by
    have := h.lt_nextSequence hslot
    rw [Registry.burn, toNat_succ hroom]
    omega

/-- A new proposal is entered. -/
theorem enter (h : r.Mirrored c) {p : Proposal} (hnew : r.slots[p.id]? = none)
    (hsequence : p.sequence = r.nextSequence) (hroom : HasSuccessor r.nextSequence)
    (hopen : p.IsOpen) (hresult : p.result = none)
    (hfits : p.statement.utf8ByteSize < UInt64.size) :
    (r.burn.add p).Mirrored (c.putProposal p.id (Format.proposal.write p)) := by
  have hslots := r.getElem?_slots_enter p
  have hlt := toNat_succ hroom
  refine ⟨?_, ?_, ?_, ?_, ?_⟩
  · intro q slot hq
    rw [hslots] at hq
    split at hq
    · cases hq
      assumption
    · exact h.id_eq hq
  · intro q slot hq
    rw [hslots] at hq
    by_cases hpq : p.id = q
    · subst hpq
      rw [if_pos rfl] at hq
      cases hq
      rw [Contents.folder_putProposal, h.absent hnew]
      exact .new hopen hresult hfits (hsequence ▸ hroom)
    · rw [if_neg hpq] at hq
      rw [Contents.folder_putProposal_of_ne (Ne.symm hpq)]
      exact h.mirrors hq
  · intro q hq
    rw [hslots] at hq
    split at hq
    · cases hq
    · rw [Contents.folder_putProposal_of_ne (Ne.symm ‹_›)]
      exact h.absent hq
  · intro n q
    show (r.order.insert p.sequence p.id)[n]? = some q ↔ _
    rw [Maps.getElem?_insert, hslots]
    by_cases hn : p.sequence = n
    · -- nobody else has the place that has just been taken
      rw [if_pos hn, Option.some.injEq]
      constructor
      · rintro rfl
        exact ⟨_, if_pos rfl, hn⟩
      · rintro ⟨slot, hq, hslot⟩
        by_contra hpq
        rw [if_neg hpq] at hq
        have := h.lt_nextSequence hq
        rw [hslot, ← hn, hsequence] at this
        exact absurd this (lt_irrefl _)
    · rw [if_neg hn, h.order_iff]
      refine exists_congr fun slot => and_congr_left fun hslot => ?_
      by_cases hpq : p.id = q
      · subst hpq
        rw [if_pos rfl, hnew]
        refine iff_of_false nofun fun heq => ?_
        cases heq
        exact hn hslot
      · rw [if_neg hpq]
  · intro q slot hq
    rw [hslots] at hq
    show slot.proposal.sequence.toNat < (r.nextSequence + 1).toNat
    split at hq
    · cases hq
      show p.sequence.toNat < _
      rw [hsequence]
      omega
    · have := h.lt_nextSequence hq
      omega

/-- What is known about a proposal changes in memory and in the store, but not its name and its
place in the order of creation. -/
theorem update (h : r.Mirrored c) {slot' : Slot} (hslot : r.slots[p]? = some slot)
    (hid : slot'.proposal.id = slot.proposal.id)
    (hsequence : slot'.proposal.sequence = slot.proposal.sequence)
    (hmirrors : slot'.Mirrors (c'.folder p)) (hrest : ∀ q ≠ p, c'.folder q = c.folder q) :
    (r.update p slot').Mirrored c' := by
  have hslots := r.getElem?_slots_update p slot'
  refine ⟨?_, ?_, ?_, ?_, ?_⟩
  · intro q slot'' hq
    rw [hslots] at hq
    split at hq
    · cases hq
      rw [hid, h.id_eq hslot]
      assumption
    · exact h.id_eq hq
  · intro q slot'' hq
    rw [hslots] at hq
    by_cases hpq : p = q
    · subst hpq
      rw [if_pos rfl] at hq
      cases hq
      exact hmirrors
    · rw [if_neg hpq] at hq
      rw [hrest q (Ne.symm hpq)]
      exact h.mirrors hq
  · intro q hq
    rw [hslots] at hq
    split at hq
    · cases hq
    · rw [hrest q (Ne.symm ‹_›)]
      exact h.absent hq
  · intro n q
    show r.order[n]? = some q ↔ _
    rw [h.order_iff, hslots]
    by_cases hpq : p = q
    · subst hpq
      simp [hslot, hsequence]
    · rw [if_neg hpq]
  · intro q slot'' hq
    rw [hslots] at hq
    show _ < r.nextSequence.toNat
    split at hq
    · cases hq
      rw [hsequence]
      exact h.lt_nextSequence hslot
    · exact h.lt_nextSequence hq

/-- A ballot is accepted. -/
theorem ballot (h : r.Mirrored c) (hslot : r.slots[p]? = some slot) {record : Ballot.Record}
    (hseq : record.action.seq = slot.book.nextSeq) (hroom : HasSuccessor slot.book.nextSeq)
    (hself : ¬ record.action.IsSelfDelegation) :
    (r.update p { slot with book := slot.book.apply record }).Mirrored
      (c.putBallot p record.action.seq (Format.ballotRecord.write record)) := by
  refine h.update hslot rfl rfl ?_ fun q hq => Contents.folder_putBallot_of_ne hq _ _
  rw [Contents.folder_putBallot]
  exact (h.mirrors hslot).ballot hseq hroom hself

/-- A proposal is closed. -/
theorem close (h : r.Mirrored c) (hslot : r.slots[p]? = some slot) (result : Tally) :
    (r.update p { slot with proposal := slot.proposal.finalize result }).Mirrored
      (c.putFinalization slot.proposal.id (Format.proposal.write (slot.proposal.finalize result))
        (Format.tally.write result)) := by
  rw [h.id_eq hslot]
  refine h.update hslot rfl rfl ?_ fun q hq => Contents.folder_putFinalization_of_ne hq _ _
  rw [Contents.folder_putFinalization]
  exact (h.mirrors hslot).close result

end Registry.Mirrored

end DelegatedVoting
