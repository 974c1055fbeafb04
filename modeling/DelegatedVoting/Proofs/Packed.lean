import DelegatedVoting.Bytes.Lemmas
import DelegatedVoting.Packed.Records
import DelegatedVoting.Proofs.Results

/-!
# Packed values are read back

Whatever follows the packed form of a value, reading takes exactly this form off the front and
gives the value back. Lengths are numbers of 64 bits, so this asks of a text that it has fewer than
`2 ^ 64` bytes.

* `Format.RoundTrips`: a value is read back from its packed form, whatever follows;
* one lemma for each way to make a format out of others;
* `proposal_roundTrips`, `tally_roundTrips`, `ballotRecord_roundTrips`: the records of a store;
* `RoundTrips.decode`: the packed form alone is decoded to the value;
* `fits_of_decode`: what is decoded can be packed again.
-/

namespace DelegatedVoting.Packed.Format

variable {α β : Type} {f : Format α} {g : Format β} {a : α} {b : β}

/-- A value is read back from its packed form, whatever follows it. -/
def RoundTrips (f : Format α) (a : α) : Prop :=
  ∀ rest, f.read (f.write a ++ rest) = .ok (a, rest)

theorem RoundTrips.read (h : f.RoundTrips a) (rest : Bytes) :
    f.read (f.write a ++ rest) = .ok (a, rest) := h rest

theorem RoundTrips.decode (h : f.RoundTrips a) : f.decode (f.write a) = .ok a := by
  have := h.read []
  rw [List.append_nil] at this
  rw [Format.decode, this]
  rfl

/-! ### Numbers and bytes -/

theorem takeFixed_append {width : Nat} {front : Bytes} (h : front.length = width) (rest : Bytes) :
    takeFixed width (front ++ rest) = .ok (front, rest) := by
  subst h
  simp [takeFixed]

theorem number_roundTrips {width n : Nat} (h : n < 256 ^ width) : (number width).RoundTrips n := by
  intro rest
  simp only [number]
  rw [takeFixed_append (Bytes.length_littleEndian width n)]
  show Except.ok (Bytes.ofLittleEndian (Bytes.littleEndian width n), rest) = _
  rw [Bytes.ofLittleEndian_littleEndian, Nat.mod_eq_of_lt h]

theorem flagOr_roundTrips (problem : Nat → Problem) (present : Bool) :
    (flagOr problem).RoundTrips present := by
  intro rest
  cases present <;> rfl

theorem block_roundTrips {bytes : Bytes} (h : bytes.length < 256 ^ 8) :
    block.RoundTrips bytes := by
  intro rest
  simp only [block, List.append_assoc]
  rw [(number_roundTrips h).read]
  show (if bytes.length ≤ (bytes ++ rest).length then _ else _) = _
  rw [if_pos (by simp), List.take_left, List.drop_left]
  rfl

/-! ### Composed values -/

theorem RoundTrips.along {ahead : α → β} {back : β → α} (h : f.RoundTrips (back b))
    (hback : ahead (back b) = b) : (f.along ahead back).RoundTrips b := by
  intro rest
  simp only [Format.along]
  rw [h.read]
  show Except.ok (ahead (back b), rest) = _
  rw [hback]

theorem RoundTrips.pair (hf : f.RoundTrips a) (hg : g.RoundTrips b) :
    (f.pair g).RoundTrips (a, b) := by
  intro rest
  simp only [Format.pair, List.append_assoc]
  rw [hf.read]
  show (g.read (g.write b ++ rest) >>= _) = _
  rw [hg.read]
  rfl

theorem optional_roundTrips {value : Option α} (h : ∀ a, value = some a → f.RoundTrips a) :
    f.optional.RoundTrips value := by
  intro rest
  cases value with
  | none =>
    simp only [optional]
    rw [(flagOr_roundTrips .presence false).read]
    rfl
  | some a =>
    simp only [optional, List.append_assoc]
    rw [(flagOr_roundTrips .presence true).read]
    show (f.read (f.write a ++ rest) >>= _) = _
    rw [(h a rfl).read]
    rfl

theorem oneOf_roundTrips [DecidableEq α] {values : List α} (h : a ∈ values)
    (hlength : values.length < 256 ^ 4) : (oneOf values).RoundTrips a := by
  intro rest
  have hplace : values.idxOf a < values.length := List.idxOf_lt_length_of_mem h
  have hvalue : values[values.idxOf a]? = some a := by
    rw [List.getElem?_eq_getElem hplace, List.getElem_idxOf hplace]
  simp only [oneOf]
  rw [(number_roundTrips (hplace.trans hlength)).read]
  simp only [bind, Except.bind, hvalue]
  rfl

theorem either_inl_roundTrips (h : f.RoundTrips a) :
    (f.either g).RoundTrips (.inl a) := by
  intro rest
  simp only [either, List.append_assoc]
  rw [(number_roundTrips (show 0 < 256 ^ 4 by decide)).read]
  show (f.read (f.write a ++ rest) >>= _) = _
  rw [h.read]
  rfl

theorem either_inr_roundTrips (h : g.RoundTrips b) :
    (f.either g).RoundTrips (.inr b) := by
  intro rest
  simp only [either, List.append_assoc]
  rw [(number_roundTrips (show 1 < 256 ^ 4 by decide)).read]
  show (g.read (g.write b ++ rest) >>= _) = _
  rw [h.read]
  rfl

/-! ### Words and texts -/

theorem word32_roundTrips (n : UInt32) : word32.RoundTrips n :=
  (number_roundTrips n.toNat_lt).along (by simp)

theorem word64_roundTrips (n : UInt64) : word64.RoundTrips n :=
  (number_roundTrips n.toNat_lt).along (by simp)

theorem length_encode (s : String) : (Text.Utf8.encode s).length = s.utf8ByteSize := by
  rw [Text.Utf8.encode, Array.length_toList, ← String.size_toByteArray]
  rfl

theorem text_roundTrips {s : String} (h : s.utf8ByteSize < UInt64.size) : text.RoundTrips s := by
  intro rest
  simp only [text]
  rw [(block_roundTrips (by rw [length_encode]; exact h)).read]
  simp only [bind, Except.bind, Text.Utf8.decode_encode]
  rfl

/-! ### Records -/

theorem proposalId_roundTrips (p : ProposalId) : proposalId.RoundTrips p := by
  intro rest
  simp only [proposalId]
  rw [(block_roundTrips (by rw [p.length_bytes]; decide)).read]
  show (if h : p.bytes.length = 16 then pure (⟨p.bytes, h⟩, rest)
    else throw (Problem.nameLength p.bytes.length)) = Except.ok (p, rest)
  rw [dif_pos p.length_bytes]
  rfl

theorem outcome_roundTrips (o : Outcome) : outcome.RoundTrips o :=
  oneOf_roundTrips (by cases o <;> decide) (by decide)

theorem status_roundTrips (s : Status) : status.RoundTrips s :=
  oneOf_roundTrips (by cases s <;> decide) (by decide)

theorem counts_roundTrips (c : Counts) : counts.RoundTrips c := by
  refine RoundTrips.along ?_ rfl
  exact (word64_roundTrips _).pair ((word64_roundTrips _).pair (word64_roundTrips _))

theorem tally_roundTrips (t : Tally) : tally.RoundTrips t := by
  refine RoundTrips.along ?_ rfl
  exact (proposalId_roundTrips _).pair ((counts_roundTrips _).pair ((outcome_roundTrips _).pair
    ((word32_roundTrips _).pair (word64_roundTrips _))))

/-- A proposal is read back if its statement is not too long to tell its length. -/
theorem proposal_roundTrips {p : Proposal} (h : p.statement.utf8ByteSize < UInt64.size) :
    proposal.RoundTrips p := by
  refine RoundTrips.along ?_ rfl
  exact (proposalId_roundTrips _).pair ((word64_roundTrips _).pair ((word32_roundTrips _).pair
    ((text_roundTrips h).pair ((status_roundTrips _).pair ((word64_roundTrips _).pair
      (optional_roundTrips fun t _ => tally_roundTrips t))))))

theorem action_roundTrips (a : Ballot.Action) : action.RoundTrips a := by
  cases a with
  | vote voter isYes seq =>
    refine RoundTrips.along ?_ rfl
    exact either_inl_roundTrips ((word32_roundTrips voter).pair
      ((flagOr_roundTrips .truth isYes).pair (word64_roundTrips seq)))
  | delegation voter delegate seq =>
    refine RoundTrips.along ?_ rfl
    exact either_inr_roundTrips ((word32_roundTrips voter).pair
      ((word32_roundTrips delegate).pair (word64_roundTrips seq)))

theorem ballotRecord_roundTrips (r : Ballot.Record) : ballotRecord.RoundTrips r := by
  refine RoundTrips.along ?_ rfl
  exact (action_roundTrips _).pair (word64_roundTrips _)

/-! ### What has been read -/

variable {bytes rest : Bytes}

theorem read_pair_eq_ok_iff : (f.pair g).read bytes = .ok ((a, b), rest) ↔
    ∃ more, f.read bytes = .ok (a, more) ∧ g.read more = .ok (b, rest) := by
  simp only [Format.pair, bind_eq_ok_iff, pure_eq_ok_iff, Prod.mk.injEq]
  constructor
  · rintro ⟨_, ha, _, hb, ⟨rfl, rfl⟩, rfl⟩
    exact ⟨_, ha, hb⟩
  · rintro ⟨more, ha, hb⟩
    exact ⟨_, ha, _, hb, ⟨rfl, rfl⟩, rfl⟩

theorem read_along_eq_ok_iff {ahead : α → β} {back : β → α} :
    (f.along ahead back).read bytes = .ok (b, rest) ↔
      ∃ a, f.read bytes = .ok (a, rest) ∧ ahead a = b := by
  simp only [Format.along, bind_eq_ok_iff, pure_eq_ok_iff, Prod.mk.injEq]
  constructor
  · rintro ⟨_, ha, rfl, rfl⟩
    exact ⟨_, ha, rfl⟩
  · rintro ⟨a, ha, rfl⟩
    exact ⟨_, ha, rfl, rfl⟩

theorem lt_of_read_number {width n : Nat} (h : (number width).read bytes = .ok (n, rest)) :
    n < 256 ^ width := by
  simp only [number, bind_eq_ok_iff, pure_eq_ok_iff, Prod.mk.injEq, takeFixed] at h
  obtain ⟨⟨digits, _⟩, htake, rfl, rfl⟩ := h
  split at htake
  · cases htake
    exact (Bytes.ofLittleEndian_lt _).trans_le (Nat.pow_le_pow_right (by omega) (by simp))
  · cases htake

/-- A text that has been read is not too long to tell its length. -/
theorem fits_of_read_text {s : String} (h : text.read bytes = .ok (s, rest)) :
    s.utf8ByteSize < UInt64.size := by
  simp only [text, block, bind_eq_ok_iff] at h
  obtain ⟨⟨body, more⟩, ⟨⟨length, tail⟩, hlength, hbody⟩, hdecode⟩ := h
  dsimp only at hbody hdecode
  split at hbody
  · rename_i hle
    cases hbody
    split at hdecode
    · rename_i hs
      cases hdecode
      rw [← length_encode, ← Text.Utf8.eq_encode_of_decode hs, List.length_take,
        Nat.min_eq_left hle]
      exact lt_of_read_number hlength
    · cases hdecode
  · cases hbody

/-- A proposal that has been decoded can be packed again. -/
theorem fits_of_decode {p : Proposal} (h : proposal.decode bytes = .ok p) :
    p.statement.utf8ByteSize < UInt64.size := by
  obtain ⟨⟨_, rest⟩, hproposal, rfl⟩ := map_eq_ok h
  obtain ⟨⟨id, sequence, proposer, statement, more⟩, hread, rfl⟩ :=
    read_along_eq_ok_iff.1 hproposal
  obtain ⟨_, -, hread⟩ := read_pair_eq_ok_iff.1 hread
  obtain ⟨_, -, hread⟩ := read_pair_eq_ok_iff.1 hread
  obtain ⟨_, -, hread⟩ := read_pair_eq_ok_iff.1 hread
  obtain ⟨_, hread, -⟩ := read_pair_eq_ok_iff.1 hread
  exact fits_of_read_text hread

end DelegatedVoting.Packed.Format
