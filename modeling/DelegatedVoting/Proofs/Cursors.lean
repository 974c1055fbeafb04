import DelegatedVoting.Bytes.Lemmas
import DelegatedVoting.Listing.Cursor

/-!
# Cursors are canonical

A digit of base 64 stands for six bits, so the last digit of a text may stand for more bits than its
bytes have. The reading refuses the text if these bits are not zero. That is why a byte string has
one written form only, and a sequence number one cursor only.

* `Base64.decode?_encode`, `eq_encode_of_decode?`: the digits of a byte string are read back as the
  byte string, and no other text is;
* `Listing.Cursor.decode?_encode`, `decode?_eq_some_iff`: the same of sequence numbers;
* `Listing.Cursor.toList_encode`: the eleven digits of a cursor;
* `Listing.Cursor.isSome_decode?_iff`: the texts that are cursors.
-/

namespace DelegatedVoting

namespace Base64

theorem value?_digit {n : Nat} (h : n < 64) : value? (digit n) = some n := by
  revert n
  decide +kernel

/-- A character has a value if it is the digit of that value. -/
theorem value?_eq_some_iff {c : Char} {n : Nat} : value? c = some n ↔ n < 64 ∧ digit n = c := by
  constructor
  · intro h
    obtain ⟨hlt, hc, -⟩ := List.idxOf?_eq_some_iff.1 h
    exact ⟨hlt, (List.getD_eq_getElem _ _ hlt).trans hc⟩
  · rintro ⟨hlt, rfl⟩
    exact value?_digit hlt

/-- A byte is told by its value. -/
theorem ofNat_eq {n : Nat} {b : UInt8} (h : n = b.toNat) : UInt8.ofNat n = b := by
  rw [h, UInt8.ofNat_toNat]

/-- **The digits of a byte string are read back.** -/
theorem decode?_encode (bytes : Bytes) : decode? (encode bytes) = some bytes := by
  induction bytes using encode.induct with
  | case1 => rfl
  | case2 a =>
    have ha := a.toNat_lt
    have hfirst : UInt8.ofNat (a.toNat / 4 * 4 + a.toNat % 4 * 16 / 16) = a := ofNat_eq (by omega)
    have hspare : a.toNat % 4 * 16 % 16 = 0 := by omega
    rw [encode, decode?, value?_digit (by omega), value?_digit (by omega)]
    simp only [Option.bind_eq_bind, Option.bind_some, hspare, if_true, hfirst]
  | case3 a b =>
    have ha := a.toNat_lt
    have hb := b.toNat_lt
    have hfirst : UInt8.ofNat (a.toNat / 4 * 4 + (a.toNat % 4 * 16 + b.toNat / 16) / 16) = a :=
      ofNat_eq (by omega)
    have hsecond : UInt8.ofNat ((a.toNat % 4 * 16 + b.toNat / 16) % 16 * 16 +
        b.toNat % 16 * 4 / 4) = b := ofNat_eq (by omega)
    have hspare : b.toNat % 16 * 4 % 4 = 0 := by omega
    rw [encode, decode?, value?_digit (by omega), value?_digit (by omega),
      value?_digit (by omega)]
    simp only [Option.bind_eq_bind, Option.bind_some, hspare, if_true, hfirst, hsecond]
  | case4 a b c rest ih =>
    have ha := a.toNat_lt
    have hb := b.toNat_lt
    have hc := c.toNat_lt
    have hfirst : UInt8.ofNat (a.toNat / 4 * 4 + (a.toNat % 4 * 16 + b.toNat / 16) / 16) = a :=
      ofNat_eq (by omega)
    have hsecond : UInt8.ofNat ((a.toNat % 4 * 16 + b.toNat / 16) % 16 * 16 +
        (b.toNat % 16 * 4 + c.toNat / 64) / 4) = b := ofNat_eq (by omega)
    have hthird : UInt8.ofNat ((b.toNat % 16 * 4 + c.toNat / 64) % 4 * 64 + c.toNat % 64) = c :=
      ofNat_eq (by omega)
    rw [encode, decode?, value?_digit (by omega), value?_digit (by omega),
      value?_digit (by omega), value?_digit (by omega), ih]
    simp only [Option.bind_eq_bind, Option.bind_some, hfirst, hsecond, hthird]

theorem toNat_ofNat {n : Nat} (h : n < 256) : (UInt8.ofNat n).toNat = n :=
  UInt8.toNat_ofNat_of_lt' h

/-- **Only the digits of a byte string are read.** -/
theorem eq_encode_of_decode? {s : List Char} {bytes : Bytes} (h : decode? s = some bytes) :
    s = encode bytes := by
  induction s using decode?.induct generalizing bytes with
  | case1 =>
    cases h
    rfl
  | case2 => cases h
  | case3 c d =>
    simp only [decode?, Option.bind_eq_bind, Option.bind_eq_some_iff, value?_eq_some_iff] at h
    obtain ⟨p, ⟨hp, rfl⟩, q, ⟨hq, rfl⟩, h⟩ := h
    split at h
    · rename_i hspare
      cases h
      have hfirst : (p * 4 + q / 16) / 4 = p := by omega
      have hsecond : (p * 4 + q / 16) % 4 * 16 = q := by omega
      rw [encode, toNat_ofNat (by omega), hfirst, hsecond]
    · cases h
  | case4 c d e =>
    simp only [decode?, Option.bind_eq_bind, Option.bind_eq_some_iff, value?_eq_some_iff] at h
    obtain ⟨p, ⟨hp, rfl⟩, q, ⟨hq, rfl⟩, r, ⟨hr, rfl⟩, h⟩ := h
    split at h
    · rename_i hspare
      cases h
      have hfirst : (p * 4 + q / 16) / 4 = p := by omega
      have hsecond : (p * 4 + q / 16) % 4 * 16 + (q % 16 * 16 + r / 4) / 16 = q := by omega
      have hthird : (q % 16 * 16 + r / 4) % 16 * 4 = r := by omega
      rw [encode, toNat_ofNat (by omega), toNat_ofNat (by omega), hfirst, hsecond, hthird]
    · cases h
  | case5 c d e f rest ih =>
    simp only [decode?, Option.bind_eq_bind, Option.bind_eq_some_iff, value?_eq_some_iff,
      Option.some.injEq] at h
    obtain ⟨p, ⟨hp, rfl⟩, q, ⟨hq, rfl⟩, r, ⟨hr, rfl⟩, s, ⟨hs, rfl⟩, bytes, hrest, rfl⟩ := h
    have hfirst : (p * 4 + q / 16) / 4 = p := by omega
    have hsecond : (p * 4 + q / 16) % 4 * 16 + (q % 16 * 16 + r / 4) / 16 = q := by omega
    have hthird : (q % 16 * 16 + r / 4) % 16 * 4 + (r % 4 * 64 + s) / 64 = r := by omega
    have hfourth : (r % 4 * 64 + s) % 64 = s := by omega
    rw [encode, toNat_ofNat (by omega), toNat_ofNat (by omega), toNat_ofNat (by omega), hfirst,
      hsecond, hthird, hfourth, ← ih hrest]

/-- **A byte string is read from its digits and from no other text.** -/
theorem decode?_eq_some_iff {s : List Char} {bytes : Bytes} :
    decode? s = some bytes ↔ s = encode bytes :=
  ⟨eq_encode_of_decode?, fun h => h ▸ decode?_encode bytes⟩

/-- Four digits write three bytes, and what is left over takes one digit more than it has bytes. -/
theorem length_encode (bytes : Bytes) : (encode bytes).length = (4 * bytes.length + 2) / 3 := by
  induction bytes using encode.induct with
  | case1 => rfl
  | case2 => simp [encode]
  | case3 => simp [encode]
  | case4 a b c rest ih =>
    simp only [encode, List.length_cons, ih]
    omega

/-! ### Which texts are read -/

theorem isSome_value?_iff {c : Char} : (value? c).isSome ↔ c ∈ alphabet := List.isSome_idxOf?

theorem isSome_decode?_cons {c d e f : Char} {rest : List Char} :
    (decode? (c :: d :: e :: f :: rest)).isSome ↔
      c ∈ alphabet ∧ d ∈ alphabet ∧ e ∈ alphabet ∧ f ∈ alphabet ∧ (decode? rest).isSome := by
  simp only [← isSome_value?_iff, decode?, Option.bind_eq_bind, Option.isSome_iff_exists,
    Option.bind_eq_some_iff, Option.some.injEq]
  constructor
  · rintro ⟨_, p, hp, q, hq, r, hr, s, hs, bytes, hbytes, -⟩
    exact ⟨⟨p, hp⟩, ⟨q, hq⟩, ⟨r, hr⟩, ⟨s, hs⟩, bytes, hbytes⟩
  · rintro ⟨⟨p, hp⟩, ⟨q, hq⟩, ⟨r, hr⟩, ⟨s, hs⟩, bytes, hbytes⟩
    exact ⟨_, p, hp, q, hq, r, hr, s, hs, bytes, hbytes, rfl⟩

theorem isSome_decode?_three {c d e : Char} : (decode? [c, d, e]).isSome ↔
    c ∈ alphabet ∧ d ∈ alphabet ∧ ∃ n, value? e = some n ∧ n % 4 = 0 := by
  simp only [← isSome_value?_iff, decode?, Option.bind_eq_bind, Option.isSome_iff_exists,
    Option.bind_eq_some_iff, Option.ite_none_right_eq_some]
  constructor
  · rintro ⟨_, p, hp, q, hq, r, hr, hspare, -⟩
    exact ⟨⟨p, hp⟩, ⟨q, hq⟩, r, hr, hspare⟩
  · rintro ⟨⟨p, hp⟩, ⟨q, hq⟩, r, hr, hspare⟩
    exact ⟨_, p, hp, q, hq, r, hr, hspare, rfl⟩

theorem digit_mem {n : Nat} (h : n < 64) : digit n ∈ alphabet := by
  rw [digit, List.getD_eq_getElem _ _ h]
  exact List.getElem_mem _

end Base64

namespace Listing.Cursor

/-- **The cursor of a sequence number is read back.** -/
theorem decode?_encode (sequence : UInt64) : decode? (encode sequence) = some sequence := by
  have hlt : sequence.toNat < 256 ^ 8 := sequence.toNat_lt
  have hnumber : UInt64.ofNat (Bytes.ofBigEndian (Bytes.bigEndian 8 sequence.toNat)) =
      sequence := by
    rw [Bytes.ofBigEndian_bigEndian, Nat.mod_eq_of_lt hlt, UInt64.ofNat_toNat]
  rw [decode?, encode, String.toList_ofList, Base64.decode?_encode]
  simp only [Option.bind_eq_bind, Option.bind_some, Bytes.length_bigEndian, if_true, hnumber]

/-- A cursor is not the empty text, which would mean the first page. -/
theorem isEmpty_encode (sequence : UInt64) : (encode sequence).isEmpty = false := by
  have hdecode := decode?_encode sequence
  cases hempty : (encode sequence).isEmpty with
  | false => rfl
  | true =>
    rw [String.isEmpty_iff.1 hempty] at hdecode
    cases hdecode

/-- **The eleven digits of a cursor.** They write the sixty-four bits of the number and two zeros
behind them, six bits each. -/
theorem toList_encode (sequence : UInt64) : (encode sequence).toList =
    (List.range 11).map fun i => Base64.digit (4 * sequence.toNat / 64 ^ (10 - i) % 64) := by
  have hlt := sequence.toNat_lt
  rw [encode, String.toList_ofList]
  generalize sequence.toNat = n at hlt
  simp only [Bytes.bigEndian, Bytes.littleEndian, List.reverse_cons, List.reverse_nil,
    List.nil_append, List.cons_append, Nat.div_div_eq_div_mul, Nat.reduceMul, Base64.encode,
    UInt8.toNat_ofNat', List.range, List.range.loop, List.map_cons, List.map_nil, Nat.reduceSub,
    Nat.reducePow, List.cons.injEq, and_true]
  refine ⟨?_, ?_, ?_, ?_, ?_, ?_, ?_, ?_, ?_, ?_, ?_⟩ <;> congr 1 <;> omega

/-- **A sequence number is read from its cursor and from no other text.** -/
theorem decode?_eq_some_iff {cursor : String} {sequence : UInt64} :
    decode? cursor = some sequence ↔ cursor = encode sequence := by
  constructor
  · intro h
    simp only [decode?, Option.bind_eq_bind, Option.bind_eq_some_iff,
      Base64.decode?_eq_some_iff] at h
    obtain ⟨bytes, hdigits, h⟩ := h
    split at h
    · rename_i hlength
      cases h
      have hlt := Bytes.ofBigEndian_lt bytes
      rw [hlength] at hlt
      rw [encode, UInt64.toNat_ofNat_of_lt' hlt, ← hlength, Bytes.bigEndian_ofBigEndian, ← hdigits,
        String.ofList_toList]
    · cases h
  · rintro rfl
    exact decode?_encode sequence

theorem length_encode (sequence : UInt64) : (encode sequence).toList.length = 11 := by
  rw [toList_encode]
  rfl

theorem toList_encode_subset (sequence : UInt64) :
    (encode sequence).toList ⊆ Base64.alphabet := by
  intro c hc
  rw [toList_encode] at hc
  obtain ⟨i, -, rfl⟩ := List.mem_map.1 hc
  exact Base64.digit_mem (Nat.mod_lt _ (by decide))

theorem getLast?_encode (sequence : UInt64) :
    (encode sequence).toList.getLast? = some (Base64.digit (4 * (sequence.toNat % 16))) := by
  have hlast : 4 * sequence.toNat / 1 % 64 = 4 * (sequence.toNat % 16) := by omega
  rw [toList_encode, List.getLast?_map, ← hlast]
  rfl

/-- **The texts that are cursors:** eleven digits, the last of which writes two zeros at its end. -/
theorem isSome_decode?_iff {cursor : String} : (decode? cursor).isSome ↔
    cursor.toList.length = 11 ∧ cursor.toList ⊆ Base64.alphabet ∧
      ∃ n < 16, cursor.toList.getLast? = some (Base64.digit (4 * n)) := by
  constructor
  · intro h
    obtain ⟨sequence, h⟩ := Option.isSome_iff_exists.1 h
    obtain rfl := decode?_eq_some_iff.1 h
    exact ⟨length_encode sequence, toList_encode_subset sequence, _, Nat.mod_lt _ (by decide),
      getLast?_encode sequence⟩
  · rintro ⟨hlength, hdigits, n, hn, hlast⟩
    rw [decode?]
    generalize cursor.toList = s at *
    match s, hlength with
    | [c₀, c₁, c₂, c₃, c₄, c₅, c₆, c₇, c₈, c₉, c₁₀], _ =>
      obtain rfl : c₁₀ = Base64.digit (4 * n) := Option.some.inj hlast
      simp only [List.cons_subset] at hdigits
      have hvalue : Base64.value? (Base64.digit (4 * n)) = some (4 * n) :=
        Base64.value?_digit (by omega)
      have hread : (Base64.decode? [c₀, c₁, c₂, c₃, c₄, c₅, c₆, c₇, c₈, c₉,
          Base64.digit (4 * n)]).isSome := by
        simp only [Base64.isSome_decode?_cons, Base64.isSome_decode?_three, hdigits, true_and]
        exact ⟨4 * n, hvalue, by omega⟩
      -- eleven digits write eight bytes
      obtain ⟨bytes, hread⟩ := Option.isSome_iff_exists.1 hread
      have hlength := congrArg List.length (Base64.decode?_eq_some_iff.1 hread)
      rw [Base64.length_encode] at hlength
      have hbytes : bytes.length = 8 := by
        simp only [List.length_cons, List.length_nil] at hlength
        omega
      rw [hread, Option.bind_eq_bind, Option.bind_some, if_pos hbytes]
      rfl

/-- **Cursors are canonical.** A number is read from its cursor and from no other text, so different
numbers have different cursors. A cursor has eleven digits, which write the sixty-four bits of the
number and two zeros behind them. Every other text is refused: one that is padded, blank somewhere,
shorter or longer, one with digits of another alphabet, and one in which the last two bits are not
zero. -/
theorem cursors_are_canonical :
    (∀ cursor sequence, decode? cursor = some sequence ↔ cursor = encode sequence) ∧
      encode.Injective ∧
      (∀ sequence, (encode sequence).toList =
        (List.range 11).map fun i => Base64.digit (4 * sequence.toNat / 64 ^ (10 - i) % 64)) ∧
      ∀ cursor, (decode? cursor).isSome ↔
        cursor.toList.length = 11 ∧ cursor.toList ⊆ Base64.alphabet ∧
          ∃ n < 16, cursor.toList.getLast? = some (Base64.digit (4 * n)) := by
  refine ⟨fun _ _ => decode?_eq_some_iff, fun m n h => ?_, toList_encode,
    fun _ => isSome_decode?_iff⟩
  have hm := decode?_encode m
  rw [h, decode?_encode] at hm
  exact (Option.some.inj hm).symm

end Listing.Cursor

end DelegatedVoting
