import DelegatedVoting.Proofs.Packed

/-!
# Packed records are a prefix code

Reading takes off the front of the bytes what writing puts there, and nothing else: a value has one
packed form, and bytes tell a value only if they begin with its packed form. So no packed form is
the beginning of another one, and bytes that are cut short tell no value at all.

* `Format.IsCanonical`: only packed forms are read;
* one lemma for each way to make a format out of others;
* `Format.IsPrefixCode`: values and their packed forms belong together, whatever follows;
* `IsCanonical.isPrefixCode`: a format that reads its own packed forms, and only those, is one;
* `records_isPrefixCode`: the records of a store, and what they are made of.
-/

namespace DelegatedVoting.Packed.Format

variable {α β : Type} {f : Format α} {g : Format β} {bytes rest : Bytes}

/-- Only packed forms are read: what is taken off the front is the packed form of the value. -/
def IsCanonical (f : Format α) : Prop :=
  ∀ ⦃bytes : Bytes⦄ ⦃a : α⦄ ⦃rest : Bytes⦄, f.read bytes = .ok (a, rest) → bytes = f.write a ++ rest

/-! ### Numbers and bytes -/

theorem number_isCanonical (width : Nat) : (number width).IsCanonical := by
  intro bytes n rest h
  simp only [number, bind_eq_ok_iff, pure_eq_ok_iff, Prod.mk.injEq, takeFixed] at h
  obtain ⟨⟨digits, _⟩, htake, rfl, rfl⟩ := h
  split at htake
  · rename_i hwidth
    cases htake
    -- the digits are as many as the width, so writing their number gives them back
    have hdigits : Bytes.littleEndian width (Bytes.ofLittleEndian (bytes.take width)) =
        bytes.take width := by
      have := Bytes.littleEndian_ofLittleEndian (bytes.take width)
      rwa [List.length_take, Nat.min_eq_left hwidth] at this
    show bytes = Bytes.littleEndian width _ ++ _
    rw [hdigits, List.take_append_drop]
  · cases htake

theorem flagOr_isCanonical (problem : Nat → Problem) : (flagOr problem).IsCanonical := by
  intro bytes present rest h
  cases bytes with
  | nil => cases h
  | cons b tail =>
    simp only [flagOr] at h
    split at h
    · rename_i hb
      cases h
      rw [hb]
      rfl
    · split at h
      · rename_i hb
        cases h
        rw [hb]
        rfl
      · cases h

theorem block_isCanonical : block.IsCanonical := by
  intro bytes body rest h
  simp only [block, bind_eq_ok_iff] at h
  obtain ⟨⟨length, tail⟩, hlength, hbody⟩ := h
  split at hbody
  · rename_i hle
    cases hbody
    show bytes = ((number 8).write (tail.take length).length ++ tail.take length) ++ _
    rw [number_isCanonical 8 hlength, List.length_take, Nat.min_eq_left hle, List.append_assoc,
      List.take_append_drop]
  · cases hbody

/-! ### Composed values -/

theorem IsCanonical.along {ahead : α → β} {back : β → α} (hf : f.IsCanonical)
    (hback : ∀ ⦃bytes : Bytes⦄ ⦃a : α⦄ ⦃rest : Bytes⦄, f.read bytes = .ok (a, rest) →
      back (ahead a) = a) : (f.along ahead back).IsCanonical := by
  intro bytes b rest h
  obtain ⟨a, ha, rfl⟩ := read_along_eq_ok_iff.1 h
  show bytes = f.write (back (ahead a)) ++ rest
  rw [hback ha]
  exact hf ha

theorem IsCanonical.pair (hf : f.IsCanonical) (hg : g.IsCanonical) : (f.pair g).IsCanonical := by
  rintro bytes ⟨a, b⟩ rest h
  obtain ⟨more, ha, hb⟩ := read_pair_eq_ok_iff.1 h
  calc
    bytes = f.write a ++ more := hf ha
    _ = f.write a ++ (g.write b ++ rest) := by rw [hg hb]
    _ = (f.pair g).write (a, b) ++ rest := (List.append_assoc _ _ _).symm

theorem IsCanonical.optional (hf : f.IsCanonical) : f.optional.IsCanonical := by
  intro bytes value rest h
  simp only [Format.optional, bind_eq_ok_iff] at h
  obtain ⟨⟨present, more⟩, hpresent, h⟩ := h
  rw [flagOr_isCanonical _ hpresent]
  cases present with
  | false =>
    cases h
    rfl
  | true =>
    obtain ⟨⟨a, tail⟩, ha, heq⟩ := bind_eq_ok_iff.1 h
    cases heq
    have hmore : more = f.write a ++ tail := hf ha
    show _ = ((flagOr .presence).write true ++ f.write a) ++ tail
    rw [hmore, List.append_assoc]

theorem oneOf_isCanonical [DecidableEq α] {values : List α} (hnodup : values.Nodup) :
    (oneOf values).IsCanonical := by
  intro bytes a rest h
  simp only [oneOf, bind_eq_ok_iff] at h
  obtain ⟨⟨place, more⟩, hplace, h⟩ := h
  dsimp only at h
  split at h
  · rename_i a' ha'
    cases h
    obtain ⟨hlt, rfl⟩ := List.getElem?_eq_some_iff.1 ha'
    show bytes = (number 4).write (values.idxOf values[place]) ++ rest
    rw [hnodup.idxOf_getElem]
    exact number_isCanonical 4 hplace
  · cases h

theorem IsCanonical.either (hf : f.IsCanonical) (hg : g.IsCanonical) :
    (f.either g).IsCanonical := by
  intro bytes value rest h
  simp only [Format.either, bind_eq_ok_iff] at h
  obtain ⟨⟨place, more⟩, hplace, h⟩ := h
  rw [number_isCanonical 4 hplace]
  dsimp only at h
  split at h
  · obtain ⟨⟨a, tail⟩, ha, heq⟩ := bind_eq_ok_iff.1 h
    cases heq
    show _ = ((number 4).write 0 ++ f.write a) ++ tail
    rw [hf ha, List.append_assoc]
  · obtain ⟨⟨b, tail⟩, hb, heq⟩ := bind_eq_ok_iff.1 h
    cases heq
    show _ = ((number 4).write 1 ++ g.write b) ++ tail
    rw [hg hb, List.append_assoc]
  · cases h

/-! ### Words and texts -/

theorem word32_isCanonical : word32.IsCanonical :=
  (number_isCanonical 4).along fun _ _ _ h => UInt32.toNat_ofNat_of_lt' (lt_of_read_number h)

theorem word64_isCanonical : word64.IsCanonical :=
  (number_isCanonical 8).along fun _ _ _ h => UInt64.toNat_ofNat_of_lt' (lt_of_read_number h)

theorem text_isCanonical : text.IsCanonical := by
  intro bytes s rest h
  simp only [text, bind_eq_ok_iff] at h
  obtain ⟨⟨body, more⟩, hbody, h⟩ := h
  dsimp only at h
  split at h
  · rename_i s' hs'
    cases h
    show bytes = block.write (Text.Utf8.encode s) ++ rest
    rw [← Text.Utf8.eq_encode_of_decode hs']
    exact block_isCanonical hbody
  · cases h

/-! ### Records -/

theorem proposalId_isCanonical : proposalId.IsCanonical := by
  intro bytes p rest h
  simp only [proposalId, bind_eq_ok_iff] at h
  obtain ⟨⟨body, more⟩, hbody, h⟩ := h
  dsimp only at h
  split at h
  · cases h
    exact block_isCanonical hbody
  · cases h

theorem outcome_isCanonical : outcome.IsCanonical := oneOf_isCanonical (by decide)

theorem status_isCanonical : status.IsCanonical := oneOf_isCanonical (by decide)

theorem counts_isCanonical : counts.IsCanonical := by
  refine IsCanonical.along ?_ fun _ _ _ _ => rfl
  exact word64_isCanonical.pair (word64_isCanonical.pair word64_isCanonical)

theorem tally_isCanonical : tally.IsCanonical := by
  refine IsCanonical.along ?_ fun _ _ _ _ => rfl
  exact proposalId_isCanonical.pair (counts_isCanonical.pair (outcome_isCanonical.pair
    (word32_isCanonical.pair word64_isCanonical)))

theorem proposal_isCanonical : proposal.IsCanonical := by
  refine IsCanonical.along ?_ fun _ _ _ _ => rfl
  exact proposalId_isCanonical.pair (word64_isCanonical.pair (word32_isCanonical.pair
    (text_isCanonical.pair (status_isCanonical.pair (word64_isCanonical.pair
      tally_isCanonical.optional)))))

theorem action_isCanonical : action.IsCanonical := by
  refine IsCanonical.along ?_ fun _ a _ _ => by cases a <;> rfl
  exact (word32_isCanonical.pair ((flagOr_isCanonical .truth).pair word64_isCanonical)).either
    (word32_isCanonical.pair (word32_isCanonical.pair word64_isCanonical))

theorem ballotRecord_isCanonical : ballotRecord.IsCanonical := by
  refine IsCanonical.along ?_ fun _ _ _ _ => rfl
  exact action_isCanonical.pair word64_isCanonical

/-! ### Prefix codes -/

/-- The values that fit and their packed forms belong together, whatever follows the packed forms,
and bytes that are cut short tell no value. -/
structure IsPrefixCode (f : Format α) (Fits : α → Prop) : Prop where
  decode_append : ∀ a, Fits a → ∀ rest, f.decode (f.write a ++ rest) = .ok a
  isPrefix_of_decode : ∀ bytes a, f.decode bytes = .ok a → Fits a ∧ f.write a <+: bytes
  eq_of_write_eq : ∀ a b, Fits a → Fits b → f.write a = f.write b → a = b
  refused_of_cut : ∀ a, Fits a → ∀ bytes, bytes <+: f.write a → bytes ≠ f.write a →
    ∃ problem, f.decode bytes = .error problem

theorem RoundTrips.decode_append {a : α} (h : f.RoundTrips a) (rest : Bytes) :
    f.decode (f.write a ++ rest) = .ok a := by
  rw [Format.decode, h.read]
  rfl

theorem IsCanonical.isPrefix_of_decode {a : α} (h : f.IsCanonical)
    (hdecode : f.decode bytes = .ok a) : f.write a <+: bytes := by
  obtain ⟨⟨_, rest⟩, hread, rfl⟩ := map_eq_ok hdecode
  exact ⟨rest, (h hread).symm⟩

/-- **A format that reads its own packed forms, and only those, is a prefix code.** -/
theorem IsCanonical.isPrefixCode {Fits : α → Prop} (h : f.IsCanonical)
    (hround : ∀ a, Fits a → f.RoundTrips a)
    (hfits : ∀ bytes a, f.decode bytes = .ok a → Fits a) : f.IsPrefixCode Fits where
  decode_append a ha := (hround a ha).decode_append
  isPrefix_of_decode bytes a ha := ⟨hfits bytes a ha, h.isPrefix_of_decode ha⟩
  eq_of_write_eq a b ha hb heq := by
    have hdecode := (hround a ha).decode
    rw [heq, (hround b hb).decode] at hdecode
    exact (Except.ok.inj hdecode).symm
  refused_of_cut a ha bytes hcut hne := by
    cases hdecode : f.decode bytes with
    | error problem => exact ⟨problem, rfl⟩
    | ok b =>
      -- what is told by the beginning is told by the whole, so it is `a`, whose form is not cut
      obtain ⟨rest, hrest⟩ := (h.isPrefix_of_decode hdecode).trans hcut
      have hb := (hround b (hfits bytes b hdecode)).decode_append rest
      rw [hrest, (hround a ha).decode] at hb
      obtain rfl := Except.ok.inj hb
      have hlength := (h.isPrefix_of_decode hdecode).length_le
      exact absurd (hcut.eq_of_length_le hlength) hne

theorem IsCanonical.isPrefixCode_of_roundTrips (h : f.IsCanonical) (hround : ∀ a, f.RoundTrips a) :
    f.IsPrefixCode fun _ => True :=
  h.isPrefixCode (fun a _ => hround a) fun _ _ _ => trivial

/-- **The records of a store are a prefix code,** and so are the values that they are made of. A
text fits if its length can be told in 64 bits. -/
theorem records_isPrefixCode :
    proposal.IsPrefixCode (fun p => p.statement.utf8ByteSize < UInt64.size) ∧
      tally.IsPrefixCode (fun _ => True) ∧ ballotRecord.IsPrefixCode (fun _ => True) ∧
      text.IsPrefixCode (fun s => s.utf8ByteSize < UInt64.size) ∧
      action.IsPrefixCode (fun _ => True) ∧ counts.IsPrefixCode (fun _ => True) ∧
      proposalId.IsPrefixCode (fun _ => True) ∧ participantId.IsPrefixCode (fun _ => True) ∧
      timestamp.IsPrefixCode (fun _ => True) ∧ outcome.IsPrefixCode (fun _ => True) ∧
      status.IsPrefixCode (fun _ => True) := by
  refine ⟨?_, ?_, ?_, ?_, ?_, ?_, ?_, ?_, ?_, ?_, ?_⟩
  · exact proposal_isCanonical.isPrefixCode (fun _ => proposal_roundTrips) fun _ _ => fits_of_decode
  · exact tally_isCanonical.isPrefixCode_of_roundTrips tally_roundTrips
  · exact ballotRecord_isCanonical.isPrefixCode_of_roundTrips ballotRecord_roundTrips
  · refine text_isCanonical.isPrefixCode (fun _ => text_roundTrips) fun bytes s hdecode => ?_
    obtain ⟨⟨_, rest⟩, hread, rfl⟩ := map_eq_ok hdecode
    exact fits_of_read_text hread
  · exact action_isCanonical.isPrefixCode_of_roundTrips action_roundTrips
  · exact counts_isCanonical.isPrefixCode_of_roundTrips counts_roundTrips
  · exact proposalId_isCanonical.isPrefixCode_of_roundTrips proposalId_roundTrips
  · exact word32_isCanonical.isPrefixCode_of_roundTrips word32_roundTrips
  · exact word64_isCanonical.isPrefixCode_of_roundTrips word64_roundTrips
  · exact outcome_isCanonical.isPrefixCode_of_roundTrips outcome_roundTrips
  · exact status_isCanonical.isPrefixCode_of_roundTrips status_roundTrips

end DelegatedVoting.Packed.Format
