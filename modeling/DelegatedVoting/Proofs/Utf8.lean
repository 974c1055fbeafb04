import DelegatedVoting.Text.Utf8
import Mathlib.Tactic.SplitIfs

/-!
# The characters of the bytes of a text

The bytes of a text are read as its characters, and no place among them is marked as a fault.

* `front_of_lt`, `front_of_two`, `front_of_three`, `front_of_four`: the character that bytes start;
* `front_utf8EncodeChar`: the bytes of a character start it, whatever follows them;
* `glyphs_encode`: the characters of the bytes of a text are those of the text.
-/

namespace DelegatedVoting.Text.Utf8

theorem isContinuation_iff {b : UInt8} :
    isContinuation b = true ↔ 0x80 ≤ b.toNat ∧ b.toNat ≤ 0xBF := by
  simp [isContinuation, UInt8.le_iff_toNat_le]

theorem admitsSecond_iff {first second : UInt8} :
    admitsSecond first second = true ↔
      0x80 ≤ second.toNat ∧ second.toNat ≤ 0xBF ∧ (first.toNat = 0xE0 → 0xA0 ≤ second.toNat) ∧
        (first.toNat = 0xED → second.toNat ≤ 0x9F) ∧ (first.toNat = 0xF0 → 0x90 ≤ second.toNat) ∧
        (first.toNat = 0xF4 → second.toNat ≤ 0x8F) := by
  simp only [admitsSecond, beq_iff_eq, ← UInt8.toNat_inj, UInt8.reduceToNat]
  split_ifs <;>
    simp only [isContinuation_iff, Bool.and_eq_true, decide_eq_true_eq, UInt8.le_iff_toNat_le,
      UInt8.reduceToNat] <;>
    omega

/-! ### What bytes start -/

section Bytes

variable {b c d e : UInt8} {rest : List UInt8}

theorem front_of_lt (hb : b.toNat < 0x80) : front b rest = .char (Char.ofNat b.toNat) 1 :=
  if_pos (UInt8.lt_iff_toNat_lt.2 hb)

theorem front_of_two (hb : 0xC2 ≤ b.toNat ∧ b.toNat ≤ 0xDF) (hc : isContinuation c = true) :
    front b (c :: rest) = .char (Char.ofNat (b.toNat % 32 * 64 + payload c)) 2 := by
  simp only [front, UInt8.lt_iff_toNat_lt, UInt8.le_iff_toNat_le, UInt8.reduceToNat, hc, if_true,
    Bool.and_eq_true, decide_eq_true_eq]
  rw [if_neg (by omega), if_pos hb]

theorem front_of_three (hb : 0xE0 ≤ b.toNat ∧ b.toNat ≤ 0xEF) (hc : admitsSecond b c = true)
    (hd : isContinuation d = true) : front b (c :: d :: rest) =
      .char (Char.ofNat (b.toNat % 16 * 4096 + payload c * 64 + payload d)) 3 := by
  simp only [front, UInt8.lt_iff_toNat_lt, UInt8.le_iff_toNat_le, UInt8.reduceToNat, hc, hd,
    if_true, Bool.and_eq_true, decide_eq_true_eq]
  rw [if_neg (by omega), if_neg (by omega), if_pos hb]

theorem front_of_four (hb : 0xF0 ≤ b.toNat ∧ b.toNat ≤ 0xF4) (hc : admitsSecond b c = true)
    (hd : isContinuation d = true) (he : isContinuation e = true) :
    front b (c :: d :: e :: rest) = .char
      (Char.ofNat (b.toNat % 8 * 262144 + payload c * 4096 + payload d * 64 + payload e)) 4 := by
  simp only [front, UInt8.lt_iff_toNat_lt, UInt8.le_iff_toNat_le, UInt8.reduceToNat, hc, hd, he,
    if_true, Bool.and_eq_true, decide_eq_true_eq]
  rw [if_neg (by omega), if_neg (by omega), if_neg (by omega), if_pos hb]

end Bytes

/-! ### The bytes of a character -/

theorem toNat_continuation (n : Nat) : (UInt8.ofNat (n % 64 + 128)).toNat = n % 64 + 128 :=
  UInt8.toNat_ofNat_of_lt' (by show _ < 256; omega)

theorem payload_continuation (n : Nat) : payload (UInt8.ofNat (n % 64 + 128)) = n % 64 := by
  rw [payload, toNat_continuation]
  omega

theorem isContinuation_continuation (n : Nat) :
    isContinuation (UInt8.ofNat (n % 64 + 128)) = true := by
  rw [isContinuation_iff, toNat_continuation]
  omega

/-- The bytes of a character start the character, whatever follows them. -/
theorem front_utf8EncodeChar (c : Char) (rest : List UInt8) : ∃ b more,
    String.utf8EncodeChar c = b :: more ∧ front b (more ++ rest) = .char c (more.length + 1) := by
  have hvalid : c.val.toNat < 0xD800 ∨ 0xDFFF < c.val.toNat ∧ c.val.toNat < 0x110000 := c.valid
  have hc : Char.ofNat c.val.toNat = c := Char.ofNat_toNat c
  have hbyte {n : Nat} (hn : n < 256) : (UInt8.ofNat n).toNat = n := UInt8.toNat_ofNat_of_lt' hn
  rw [String.utf8EncodeChar]
  generalize c.val.toNat = v at hvalid hc ⊢
  subst hc
  show ∃ b more, (if v ≤ 127 then _ else _) = b :: more ∧ _
  split_ifs with h1 h2 h3
  · have hb := hbyte (show v < 256 by omega)
    refine ⟨_, _, rfl, (front_of_lt (by omega)).trans ?_⟩
    rw [hb]
    rfl
  · have hb := hbyte (show v / 64 % 32 + 192 < 256 by omega)
    refine ⟨_, _, rfl, (front_of_two (by omega) (isContinuation_continuation v)).trans ?_⟩
    rw [hb, payload_continuation, show (v / 64 % 32 + 192) % 32 * 64 + v % 64 = v by omega]
    rfl
  · have hb := hbyte (show v / 4096 % 16 + 224 < 256 by omega)
    have hadmits : admitsSecond (UInt8.ofNat (v / 4096 % 16 + 224))
        (UInt8.ofNat (v / 64 % 64 + 128)) = true := by
      rw [admitsSecond_iff, hb, toNat_continuation]
      omega
    refine ⟨_, _, rfl, (front_of_three (by omega) hadmits (isContinuation_continuation v)).trans ?_⟩
    rw [hb, payload_continuation, payload_continuation,
      show (v / 4096 % 16 + 224) % 16 * 4096 + v / 64 % 64 * 64 + v % 64 = v by omega]
    rfl
  · have hb := hbyte (show v / 262144 % 8 + 240 < 256 by omega)
    have hadmits : admitsSecond (UInt8.ofNat (v / 262144 % 8 + 240))
        (UInt8.ofNat (v / 4096 % 64 + 128)) = true := by
      rw [admitsSecond_iff, hb, toNat_continuation]
      omega
    refine ⟨_, _, rfl, (front_of_four (by omega) hadmits (isContinuation_continuation (v / 64))
      (isContinuation_continuation v)).trans ?_⟩
    rw [hb, payload_continuation, payload_continuation, payload_continuation,
      show (v / 262144 % 8 + 240) % 8 * 262144 + v / 4096 % 64 * 4096 + v / 64 % 64 * 64 + v % 64 =
        v by omega]
    rfl

/-! ### The characters of a text -/

theorem glyphsOnto_utf8EncodeChar (read : List (Option Char)) (c : Char) (rest : List UInt8) :
    glyphsOnto read (String.utf8EncodeChar c ++ rest) = glyphsOnto (some c :: read) rest := by
  obtain ⟨b, more, hbytes, hfront⟩ := front_utf8EncodeChar c rest
  rw [hbytes, List.cons_append, glyphsOnto, hfront]
  show glyphsOnto _ ((more ++ rest).drop (more.length + 1 - 1)) = _
  rw [Nat.add_sub_cancel, List.drop_left]

/-- The characters of a text are read one after the other. -/
theorem glyphsOnto_flatMap (read : List (Option Char)) (s : List Char) :
    glyphsOnto read (s.flatMap String.utf8EncodeChar) = read.reverse ++ s.map some := by
  induction s generalizing read with
  | nil => simp [glyphsOnto]
  | cons c s ih =>
    rw [List.flatMap_cons, glyphsOnto_utf8EncodeChar, ih, List.reverse_cons, List.append_assoc,
      List.map_cons, List.singleton_append]

/-- The characters of the bytes of a text are those of the text. -/
theorem glyphs_encode (s : String) : glyphs (encode s) = s.toList.map some := by
  obtain ⟨cs, rfl⟩ : ∃ cs, s = String.ofList cs := ⟨s.toList, (String.ofList_toList).symm⟩
  have hencode : encode (String.ofList cs) = cs.flatMap String.utf8EncodeChar := by
    rw [encode, String.toByteArray_ofList, List.utf8Encode]
    simp
  rw [hencode, glyphs, glyphsOnto_flatMap, String.toList_ofList]
  rfl

end DelegatedVoting.Text.Utf8
