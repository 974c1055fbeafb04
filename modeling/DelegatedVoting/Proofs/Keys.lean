import DelegatedVoting.Bytes.Lemmas
import DelegatedVoting.Proofs.Maps
import DelegatedVoting.Store.Tables

/-!
# The order of the keys

The byte strings that extend a given one follow each other in the lexicographic order: they begin
with it and end before its successor. Numbers that are written highest byte first, in the same
width, are ordered as the numbers are, so the ballots of a proposal follow each other by number.

* `Bytes.isPrefix_iff`: the extensions of a byte string are an interval;
* `Bytes.compare_eq_lt_iff`, `Bytes.isLE_compare_iff`: byte strings are compared as lists are
  ordered;
* `Bytes.successor?_append_singleton`, `Bytes.successor?_eq_none_iff`: how the successor is found,
  and when there is none;
* `Bytes.compare_eq_compare_ofBigEndian`: byte strings of one length are ordered as numbers;
* `Key.ballot_inj`, `Key.compare_ballot`, `Key.seq?_ballot`: the keys of ballots;
* `Key.keys_stand_in_order`: the interval of the extensions, and the order of the ballots;
* `Table.mem_below_iff`: the entries below a byte string are those that extend it.
-/

namespace DelegatedVoting

/-- The order of lists is told by their beginnings, if these have one length. -/
theorem compare_append {α : Type} [Ord α] {s t x y : List α} (h : s.length = t.length) :
    compare (s ++ x) (t ++ y) = (compare s t).then (compare x y) := by
  induction s generalizing t with
  | nil =>
    obtain rfl := List.length_eq_zero_iff.1 h.symm
    rfl
  | cons a s ih =>
    cases t with
    | nil => cases h
    | cons b t =>
      rw [List.cons_append, List.cons_append, List.compare_cons_cons, List.compare_cons_cons,
        ih (Nat.succ.inj h)]
      cases compare a b <;> rfl

namespace Bytes

/-! ### Extensions of a byte string -/

theorem toNat_add_one {b : UInt8} (hb : b ≠ 0xFF) : (b + 1).toNat = b.toNat + 1 := by
  have hlt := b.toNat_lt
  have hne : b.toNat ≠ 255 := fun h => hb (UInt8.toNat_inj.1 h)
  rw [UInt8.toNat_add]
  exact Nat.mod_eq_of_lt (show b.toNat + 1 < 256 by omega)

/-- What begins with a larger byte is not below the successor, which exists then. -/
theorem not_isLT_successor {b k : UInt8} (hlt : b.toNat < k.toNat) (start key : Bytes) :
    ∃ upper, successor? (b :: start) = some upper ∧ ¬ (compare (k :: key) upper).isLT := by
  rw [successor?]
  cases successor? start with
  | some next =>
    have hgt : compare k b = .gt := Std.compare_eq_gt.2 hlt
    refine ⟨b :: next, rfl, ?_⟩
    rw [List.compare_cons_cons, hgt]
    nofun
  | none =>
    have hmax : b ≠ 0xFF := by
      rintro rfl
      have := k.toNat_lt
      exact absurd hlt (by show ¬ 255 < _; omega)
    have hle : ¬ k < b + 1 := by
      rw [UInt8.lt_iff_toNat_lt, toNat_add_one hmax]
      omega
    refine ⟨[b + 1], if_neg hmax, ?_⟩
    rw [List.compare_cons_cons]
    cases hcompare : compare k (b + 1) with
    | lt => exact absurd (Std.compare_eq_lt.1 hcompare) hle
    | eq => cases key <;> nofun
    | gt => nofun

/-- What begins with a byte is below the successor of that byte. -/
theorem isLT_compare_add_one {b : UInt8} (hmax : b ≠ 0xFF) (key : Bytes) :
    (compare (b :: key) [b + 1]).isLT := by
  have hlt : b < b + 1 := by
    rw [UInt8.lt_iff_toNat_lt, toNat_add_one hmax]
    omega
  rw [List.compare_cons_cons, Std.compare_eq_lt.2 hlt]
  rfl

/-- **The extensions of a byte string are an interval** that ends before the successor. -/
theorem isPrefix_iff (start key : Bytes) : start <+: key ↔
    (compare start key).isLE ∧ ∀ upper, start.successor? = some upper →
      (compare key upper).isLT := by
  induction start generalizing key with
  | nil => simp [successor?, List.isLE_compare_nil_left]
  | cons b start ih =>
    cases key with
    | nil => simp
    | cons k key =>
      rw [List.cons_prefix_cons]
      -- where the first bytes differ, the key is below the start or not below the successor
      rcases Nat.lt_trichotomy b.toNat k.toNat with hlt | heq | hgt
      · refine iff_of_false (fun h => ?_) fun h => ?_
        · rw [h.1] at hlt
          exact Nat.lt_irrefl _ hlt
        · obtain ⟨upper, hupper, hge⟩ := not_isLT_successor hlt start key
          exact hge (h.2 upper hupper)
      · obtain rfl := UInt8.toNat_inj.1 heq
        rw [and_iff_right rfl, ih, List.compare_cons_cons, Std.ReflOrd.compare_self]
        refine and_congr_right fun _ => ?_
        rw [successor?]
        cases successor? start with
        | some next => simp
        | none =>
          refine iff_of_true nofun fun upper hupper => ?_
          dsimp only at hupper
          split at hupper
          · cases hupper
          · cases hupper
            exact isLT_compare_add_one ‹_› key
      · have hcompare : compare b k = .gt := Std.compare_eq_gt.2 hgt
        rw [List.compare_cons_cons, hcompare]
        refine iff_of_false (fun h => ?_) fun h => nomatch h.1
        rw [h.1] at hgt
        exact Nat.lt_irrefl _ hgt

/-! ### The lexicographic order and the successor -/

section Order

variable {s t start : Bytes}

/-- Byte strings are compared in the lexicographic order. -/
theorem compare_eq_lt_iff : compare s t = .lt ↔ s < t := by
  induction s generalizing t with
  | nil =>
    cases t with
    | nil => exact iff_of_false nofun (List.not_lt_nil [])
    | cons b t => exact iff_of_true rfl (List.nil_lt_cons b t)
  | cons a s ih =>
    cases t with
    | nil => exact iff_of_false nofun (List.not_lt_nil _)
    | cons b t =>
      rw [List.compare_cons_cons, List.cons_lt_cons_iff, ← ih, Ordering.then_eq_lt,
        Std.compare_eq_lt, Std.LawfulEqOrd.compare_eq_iff_eq]

theorem isLT_compare_iff : (compare s t).isLT ↔ s < t := by
  rw [← compare_eq_lt_iff, Ordering.isLT_iff_eq_lt]

theorem isLE_compare_iff : (compare s t).isLE ↔ s ≤ t := by
  rw [← List.not_lt, ← compare_eq_lt_iff, Std.OrientedOrd.eq_swap (a := t)]
  cases compare s t <;> decide

/-- The last byte grows by one. If it is the largest one, it is dropped, and it is the turn of the
byte before it. -/
theorem successor?_append_singleton (start : Bytes) (b : UInt8) :
    successor? (start ++ [b]) =
      if b = 0xFF then start.successor? else some (start ++ [b + 1]) := by
  induction start with
  | nil => rfl
  | cons a start ih =>
    rw [List.cons_append, successor?, ih, successor?]
    by_cases hb : b = 0xFF
    · rw [if_pos hb, if_pos hb]
    · rw [if_neg hb, if_neg hb]
      rfl

/-- There is no successor if and only if every byte is the largest one. -/
theorem successor?_eq_none_iff : start.successor? = none ↔ ∀ b ∈ start, b = 0xFF := by
  induction start using List.reverseRecOn with
  | nil => exact iff_of_true rfl nofun
  | append_singleton start b ih =>
    rw [successor?_append_singleton, List.forall_mem_append, List.forall_mem_singleton, ← ih]
    by_cases hb : b = 0xFF <;> simp [hb]

end Order

/-! ### Byte strings of one length -/

theorem ofLittleEndian_append (s t : Bytes) :
    ofLittleEndian (s ++ t) = ofLittleEndian s + 256 ^ s.length * ofLittleEndian t := by
  induction s with
  | nil => simp [ofLittleEndian]
  | cons b s ih =>
    rw [List.cons_append, ofLittleEndian, ofLittleEndian, ih, List.length_cons, Nat.pow_succ']
    ring

theorem ofBigEndian_cons (b : UInt8) (s : Bytes) :
    ofBigEndian (b :: s) = ofBigEndian s + 256 ^ s.length * b.toNat := by
  rw [ofBigEndian, List.reverse_cons, ofLittleEndian_append, List.length_reverse]
  simp [ofBigEndian, ofLittleEndian]

/-- **Byte strings of one length are ordered as the numbers** that they write. -/
theorem compare_eq_compare_ofBigEndian {s t : Bytes} (h : s.length = t.length) :
    compare s t = compare (ofBigEndian s) (ofBigEndian t) := by
  induction s generalizing t with
  | nil =>
    obtain rfl := List.length_eq_zero_iff.1 h.symm
    rfl
  | cons a s ih =>
    cases t with
    | nil => cases h
    | cons b t =>
      have hlength : s.length = t.length := Nat.succ.inj h
      have hs := ofBigEndian_lt s
      have ht := ofBigEndian_lt t
      rw [List.compare_cons_cons, ofBigEndian_cons, ofBigEndian_cons, ih hlength]
      rw [hlength] at hs ⊢
      -- what stands behind the first byte writes less than one of its units
      generalize 256 ^ t.length = width at hs ht
      rcases Nat.lt_trichotomy a.toNat b.toNat with hlt | heq | hgt
      · have hcompare : compare a b = .lt := Std.compare_eq_lt.2 hlt
        have hstep := Nat.mul_le_mul_left width (Nat.succ_le_of_lt hlt)
        rw [Nat.mul_succ] at hstep
        have hnumbers : compare (ofBigEndian s + width * a.toNat)
            (ofBigEndian t + width * b.toNat) = .lt := Nat.compare_eq_lt.2 (by omega)
        rw [hcompare, hnumbers]
        rfl
      · obtain rfl := UInt8.toNat_inj.1 heq
        rw [Std.ReflOrd.compare_self]
        show compare (ofBigEndian s) (ofBigEndian t) = _
        simp only [Nat.compare_eq_ite_lt, Nat.add_lt_add_iff_right]
      · have hcompare : compare a b = .gt := Std.compare_eq_gt.2 hgt
        have hstep := Nat.mul_le_mul_left width (Nat.succ_le_of_lt hgt)
        rw [Nat.mul_succ] at hstep
        have hnumbers : compare (ofBigEndian s + width * a.toNat)
            (ofBigEndian t + width * b.toNat) = .gt := Nat.compare_eq_gt.2 (by omega)
        rw [hcompare, hnumbers]
        rfl

end Bytes

/-! ### The keys of ballots -/

namespace Key

variable {p q : ProposalId} {seq seq' : UInt64}

theorem ofBigEndian_word (n : UInt64) :
    Bytes.ofBigEndian (Bytes.bigEndian 8 n.toNat) = n.toNat := by
  rw [Bytes.ofBigEndian_bigEndian]
  exact Nat.mod_eq_of_lt n.toNat_lt

@[simp] theorem length_ballot (p : ProposalId) (seq : UInt64) : (ballot p seq).length = 24 := by
  rw [ballot, List.length_append, p.length_bytes, Bytes.length_bigEndian]

theorem seq?_ballot (p : ProposalId) (seq : UInt64) : seq? (ballot p seq) = some seq := by
  rw [seq?, if_pos (length_ballot p seq), ballot,
    List.drop_left' p.length_bytes, ofBigEndian_word, UInt64.ofNat_toNat]

theorem seq?_eq_none_iff {key : Bytes} : seq? key = none ↔ key.length ≠ 24 := by
  unfold seq?
  split <;> simp_all

theorem isPrefix_ballot_iff : p.bytes <+: ballot q seq ↔ p = q := by
  have hlength : p.bytes.length = q.bytes.length := by rw [p.length_bytes, q.length_bytes]
  constructor
  · intro h
    have hextends := List.prefix_of_prefix_length_le h (List.prefix_append _ _) hlength.le
    exact ProposalId.ext (hextends.eq_of_length hlength)
  · rintro rfl
    exact List.prefix_append _ _

theorem ballot_inj : ballot p seq = ballot q seq' ↔ p = q ∧ seq = seq' := by
  constructor
  · intro h
    have hseq := seq?_ballot p seq
    rw [h, seq?_ballot] at hseq
    have hp : p.bytes <+: ballot q seq' := h ▸ List.prefix_append _ _
    exact ⟨isPrefix_ballot_iff.1 hp, (Option.some.inj hseq).symm⟩
  · rintro ⟨rfl, rfl⟩
    rfl

theorem compare_toNat (m n : UInt64) : compare m n = compare m.toNat n.toNat := by
  rcases Nat.lt_trichotomy m.toNat n.toNat with hlt | heq | hgt
  · rw [Nat.compare_eq_lt.2 hlt]
    exact Std.compare_eq_lt.2 hlt
  · obtain rfl := UInt64.toNat_inj.1 heq
    rw [Std.ReflOrd.compare_self, Std.ReflOrd.compare_self]
  · rw [Nat.compare_eq_gt.2 hgt]
    exact Std.compare_eq_gt.2 hgt

/-- **Ballots are ordered by their proposals and then by their numbers.** -/
theorem compare_ballot (p q : ProposalId) (seq seq' : UInt64) :
    compare (ballot p seq) (ballot q seq') = (compare p q).then (compare seq seq') := by
  have hlength : p.bytes.length = q.bytes.length := by rw [p.length_bytes, q.length_bytes]
  have hwidth : (Bytes.bigEndian 8 seq.toNat).length = (Bytes.bigEndian 8 seq'.toNat).length := by
    rw [Bytes.length_bigEndian, Bytes.length_bigEndian]
  rw [ballot, ballot, compare_append hlength, Bytes.compare_eq_compare_ofBigEndian hwidth,
    ofBigEndian_word, ofBigEndian_word, compare_toNat]
  rfl

theorem ballot_lt_iff :
    ballot p seq < ballot q seq' ↔ p.bytes < q.bytes ∨ p = q ∧ seq < seq' := by
  have hproposals : compare p q = compare p.bytes q.bytes := rfl
  rw [← Bytes.compare_eq_lt_iff, compare_ballot, Ordering.then_eq_lt,
    Std.LawfulEqOrd.compare_eq_iff_eq, Std.compare_eq_lt (a := seq), hproposals,
    Bytes.compare_eq_lt_iff]

/-- **The extensions of a byte string are an interval, and ballots stand in the order of their
numbers.** In the lexicographic order, what begins with `start` is what lies from `start` on and
before its successor; there is no successor if and only if every byte of `start` is the largest one,
and then nothing that lies from `start` on begins otherwise. The keys of ballots are ordered by the
bytes of their proposals and then by their numbers. A number is read from its key, and from no key
of another length. -/
theorem keys_stand_in_order :
    (∀ start upper : Bytes, start.successor? = some upper →
      ∀ key : Bytes, start <+: key ↔ start ≤ key ∧ key < upper) ∧
    (∀ start : Bytes, start.successor? = none →
      (∀ b ∈ start, b = 0xFF) ∧ ∀ key : Bytes, start <+: key ↔ start ≤ key) ∧
    (∀ (p q : ProposalId) (seq seq' : UInt64), ballot p seq < ballot q seq' ↔
      p.bytes < q.bytes ∨ p.bytes = q.bytes ∧ seq.toNat < seq'.toNat) ∧
    (∀ (p : ProposalId) (seq : UInt64), seq? (ballot p seq) = some seq) ∧
    ∀ key : Bytes, key.length ≠ 24 → seq? key = none := by
  refine ⟨fun start upper hupper key => ?_, fun start hnone => ⟨?_, fun key => ?_⟩,
    fun p q seq seq' => ?_, seq?_ballot, fun key => seq?_eq_none_iff.2⟩
  · rw [Bytes.isPrefix_iff, Bytes.isLE_compare_iff, hupper]
    simp only [Option.some.injEq, forall_eq', Bytes.isLT_compare_iff]
  · exact Bytes.successor?_eq_none_iff.1 hnone
  · rw [Bytes.isPrefix_iff, Bytes.isLE_compare_iff, hnone]
    exact and_iff_left nofun
  · rw [ballot_lt_iff, ProposalId.ext_iff, UInt64.lt_iff_toNat_lt]

/-- A byte that carries, a byte string without a successor, and a key that is too short. -/
theorem keys_stand_in_order_of_carry :
    (Bytes.successor? [7, 0xFF] = some [8] ∧
      ∀ key : Bytes, [7, 0xFF] <+: key ↔ [7, 0xFF] ≤ key ∧ key < [8]) ∧
    (Bytes.successor? [0xFF, 0xFF] = none ∧
      ∀ key : Bytes, [0xFF, 0xFF] <+: key ↔ [0xFF, 0xFF] ≤ key) ∧
    ([7, 0xFF].length ≠ 24 ∧ seq? [7, 0xFF] = none) :=
  ⟨⟨rfl, keys_stand_in_order.1 _ _ rfl⟩, ⟨rfl, (keys_stand_in_order.2.1 _ rfl).2⟩,
    by decide, keys_stand_in_order.2.2.2.2 _ (by decide)⟩

end Key

/-- The entries below a byte string are those whose keys extend it. -/
theorem Table.mem_below_iff {start : Bytes} {t : Table} {e : Bytes × Bytes} :
    e ∈ t.below start ↔ t[e.1]? = some e.2 ∧ start <+: e.1 := by
  rw [below, List.mem_filter, Maps.mem_toList_iff, Bytes.isPrefix_iff,
    Bool.and_eq_true]
  refine and_congr_right fun _ => and_congr_right fun _ => ?_
  cases start.successor? <;> simp

end DelegatedVoting
