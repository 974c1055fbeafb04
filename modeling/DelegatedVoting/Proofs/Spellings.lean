import DelegatedVoting.Identifier
import DelegatedVoting.Proofs.Keys

/-!
# The spellings of a name

A name can be given as 32 digits or as its digits in groups, and groups may stand in braces or
after a scheme. The grammar is stated apart from the reading, and the reading accepts what the
grammar allows.

* `Text.trim_append`, `Text.exists_trim`: which texts a text with blanks around it comes from;
* `Text.compare_toList`: texts are ordered character by character;
* `Text.Hex.Spells`, `Text.Hex.toBytes?_eq_some_iff`: bytes and the digits that write them;
* `ProposalId.Grouped`, `ProposalId.Spelling`, `ProposalId.IsSpelledBy`: the grammar;
* `ProposalId.read?_eq_some_iff`, `ProposalId.parse_eq_ok_iff`, `ProposalId.parse_eq_error_iff`:
  the reading and its refusals;
* `ProposalId.grouped_and_not_isUpper_iff`, `ProposalId.compare_write`: the written form and the
  order that it keeps.
-/

namespace DelegatedVoting

namespace Text

/-! ### Blanks around a text -/

/-- Blanks around a text that has none are taken off. -/
theorem trim_append {front s back : List Char} (hfront : ∀ c ∈ front, isBlank c = true)
    (hback : ∀ c ∈ back, isBlank c = true) (hs : ∀ c ∈ s, isBlank c = false) :
    trim (front ++ s ++ back) = s := by
  have hend {l : List Char} (hl : ∀ c ∈ l, isBlank c = false) (hne : l ≠ []) (rest : List Char) :
      (l ++ rest).dropWhile isBlank = l ++ rest := by
    obtain ⟨c, l, rfl⟩ := List.exists_cons_of_ne_nil hne
    exact List.dropWhile_cons_of_neg (by simp [hl c])
  by_cases hnil : s = []
  · subst hnil
    exact trim_eq_nil_of_all_blank (by simpa [or_imp, forall_and] using ⟨hfront, hback⟩)
  · rw [trim, List.append_assoc, List.dropWhile_append_of_pos hfront, hend hs hnil,
      List.reverse_append, List.dropWhile_append_of_pos (by simpa using hback),
      ← List.append_nil s.reverse, hend (by simpa using hs) (by simpa using hnil)]
    simp

/-- What is taken off a text are blanks. -/
theorem exists_trim (s : List Char) : ∃ front back, s = front ++ trim s ++ back ∧
    (∀ c ∈ front, isBlank c = true) ∧ ∀ c ∈ back, isBlank c = true := by
  refine ⟨s.takeWhile isBlank, ((s.dropWhile isBlank).reverse.takeWhile isBlank).reverse, ?_,
    fun c hc => List.mem_takeWhile_imp hc,
    fun c hc => List.mem_takeWhile_imp (List.mem_reverse.1 hc)⟩
  rw [trim, List.append_assoc, ← List.reverse_append, List.takeWhile_append_dropWhile,
    List.reverse_reverse, List.takeWhile_append_dropWhile]

/-- No blank has a lower case of its own. -/
theorem toLower_of_isBlank {c : Char} (h : isBlank c = true) : c.toLower = c := by
  refine dif_neg fun hupper => ?_
  have hupper' : 65 ≤ c.val ∧ c.val ≤ 90 := hupper
  clear hupper
  simp only [isBlank, Bool.or_eq_true, Bool.and_eq_true, beq_iff_eq, decide_eq_true_eq,
    UInt32.le_iff_toNat_le, ← UInt32.toNat_inj, UInt32.reduceToNat] at h hupper'
  omega

/-! ### The order of texts -/

theorem compare_eq_compareOfLessAndEq (s t : List Char) : compare s t = compareOfLessAndEq s t := by
  induction s generalizing t with
  | nil => cases t <;> rfl
  | cons a s ih =>
    cases t with
    | nil => rfl
    | cons b t =>
      rw [List.compare_cons_cons, ih, show compare a b = compareOfLessAndEq a b from rfl]
      unfold compareOfLessAndEq
      rcases lt_trichotomy a b with h | rfl | h
      · simp only [List.cons_lt_cons_iff, h, true_or, if_true, Ordering.lt_then]
      · simp only [List.cons_lt_cons_iff, lt_self_iff_false, false_or, true_and, if_false, if_true,
          List.cons.injEq, Ordering.eq_then]
      · simp only [List.cons_lt_cons_iff, h.not_gt, h.ne', false_and, or_self, if_false,
          List.cons.injEq, Ordering.gt_then]

theorem compare_toList (s t : String) : compare s.toList t.toList = compare s t := by
  rw [compare_eq_compareOfLessAndEq]
  show _ = compareOfLessAndEq s t
  simp only [compareOfLessAndEq, String.lt_iff_toList_lt, String.toList_inj]

/-! ### Digits in either case -/

namespace Hex

/-- The digit of a number below sixteen, in either case. -/
def IsDigit (n : Nat) (c : Char) : Prop :=
  "0123456789abcdef".toList[n]? = some c ∨ "0123456789ABCDEF".toList[n]? = some c

/-- Two digits for each byte, the higher one first. -/
inductive Spells : List UInt8 → List Char → Prop
  | nil : Spells [] []
  | cons {b : UInt8} {bytes : List UInt8} {c d : Char} {digits : List Char} :
    IsDigit (b.toNat / 16) c → IsDigit (b.toNat % 16) d → Spells bytes digits →
      Spells (b :: bytes) (c :: d :: digits)

/-- The characters that have a value are the digits. -/
theorem value?_eq_some_iff {c : Char} {n : Nat} : value? c = some n ↔ IsDigit n c := by
  constructor
  · intro h
    have hn := value?_lt h
    have hc : c.toNat < 103 := by grind [value?]
    have hall : ∀ m < 103, ∀ n < 16, value? (Char.ofNat m) = some n → IsDigit n (Char.ofNat m) := by
      unfold IsDigit
      decide +kernel
    have hdigit := hall c.toNat hc n hn
    rw [Char.ofNat_toNat] at hdigit
    exact hdigit h
  · have hlower : ∀ n < 16, ("0123456789abcdef".toList[n]?).bind value? = some n := by
      decide +kernel
    have hupper : ∀ n < 16, ("0123456789ABCDEF".toList[n]?).bind value? = some n := by
      decide +kernel
    rintro (h | h)
    · have hvalue := hlower n (List.getElem?_eq_some_iff.1 h).1
      rwa [h] at hvalue
    · have hvalue := hupper n (List.getElem?_eq_some_iff.1 h).1
      rwa [h] at hvalue

/-- **The bytes that pairs of digits write.** -/
theorem toBytes?_eq_some_iff {s : List Char} {bytes : List UInt8} :
    toBytes? s = some bytes ↔ Spells bytes s := by
  constructor
  · intro h
    induction s using toBytes?.induct generalizing bytes with
    | case1 =>
      cases h
      exact .nil
    | case2 => cases h
    | case3 c d rest ih =>
      simp only [toBytes?, Option.bind_eq_bind, Option.bind_eq_some_iff, Option.pure_def,
        Option.some.injEq] at h
      obtain ⟨m, hm, n, hn, bytes, hrest, rfl⟩ := h
      have hm' := value?_lt hm
      have hn' := value?_lt hn
      have hbyte : (UInt8.ofNat (16 * m + n)).toNat = 16 * m + n :=
        UInt8.toNat_ofNat_of_lt' (by show _ < 256; omega)
      refine .cons ?_ ?_ (ih hrest)
      · rwa [hbyte, show (16 * m + n) / 16 = m by omega, ← value?_eq_some_iff]
      · rwa [hbyte, show (16 * m + n) % 16 = n by omega, ← value?_eq_some_iff]
  · intro h
    induction h with
    | nil => rfl
    | @cons b bytes c d digits hc hd _ ih =>
      have hb : 16 * (b.toNat / 16) + b.toNat % 16 = b.toNat := by omega
      rw [toBytes?, value?_eq_some_iff.2 hc, value?_eq_some_iff.2 hd, ih]
      simp only [Option.bind_eq_bind, Option.bind_some, hb, UInt8.ofNat_toNat]
      rfl

theorem spells_ofBytes (bytes : List UInt8) : Spells bytes (ofBytes bytes) :=
  toBytes?_eq_some_iff.1 (toBytes?_ofBytes bytes)

theorem IsDigit.not_isBlank {n : Nat} {c : Char} (h : IsDigit n c) : isBlank c = false := by
  have hlower : ∀ c ∈ "0123456789abcdef".toList, isBlank c = false := by simp [isBlank]
  have hupper : ∀ c ∈ "0123456789ABCDEF".toList, isBlank c = false := by simp [isBlank]
  rcases h with h | h
  · exact hlower c (List.mem_of_getElem? h)
  · exact hupper c (List.mem_of_getElem? h)

/-- A digit that is no capital letter is the one that is written. -/
theorem IsDigit.eq_digit {n : Nat} {c : Char} (h : IsDigit n c) (hc : c.isUpper = false) :
    c = digit n := by
  have hlower : ∀ n < 16, "0123456789abcdef".toList[n]? = some (digit n) := by decide +kernel
  have hupper : ∀ n < 16, "0123456789ABCDEF".toList[n]? = some (digit n).toUpper ∧
      ((digit n).toUpper.isUpper = false → (digit n).toUpper = digit n) := by
    decide +kernel
  rcases h with h | h
  · rw [hlower n (List.getElem?_eq_some_iff.1 h).1] at h
    exact (Option.some.inj h).symm
  · obtain ⟨hdigit, hcase⟩ := hupper n (List.getElem?_eq_some_iff.1 h).1
    obtain rfl := Option.some.inj (hdigit.symm.trans h)
    exact hcase hc

theorem Spells.not_isBlank {bytes : List UInt8} {s : List Char} (h : Spells bytes s) :
    ∀ c ∈ s, isBlank c = false := by
  induction h with
  | nil => nofun
  | cons hc hd _ ih => simpa [hc.not_isBlank, hd.not_isBlank] using ih

theorem Spells.eq_ofBytes {bytes : List UInt8} {s : List Char} (h : Spells bytes s)
    (hs : ∀ c ∈ s, c.isUpper = false) : s = ofBytes bytes := by
  induction h with
  | nil => rfl
  | cons hc hd _ ih =>
    simp only [List.mem_cons, forall_eq_or_imp] at hs
    obtain ⟨hsc, hsd, hs⟩ := hs
    rw [hc.eq_digit hsc, hd.eq_digit hsd, ih hs]
    rfl

theorem not_isUpper_of_mem (bytes : List UInt8) : ∀ c ∈ ofBytes bytes, c.isUpper = false := by
  have hdigit : ∀ n < 16, (digit n).isUpper = false := by decide +kernel
  intro c hc
  obtain ⟨b, -, hc⟩ := List.mem_flatMap.1 hc
  have hb := b.toNat_lt
  rw [ofByte, List.mem_pair] at hc
  rcases hc with rfl | rfl
  · exact hdigit _ (by omega)
  · exact hdigit _ (by omega)

theorem compare_digit : ∀ m < 16, ∀ n < 16, compare (digit m) (digit n) = compare m n := by
  decide +kernel

theorem compare_ofByte (a b : UInt8) : compare (ofByte a) (ofByte b) = compare a b := by
  have ha := a.toNat_lt
  have hb := b.toNat_lt
  have hbyte : compare a b = compare a.toNat b.toNat := by
    show compareOfLessAndEq a b = compareOfLessAndEq a.toNat b.toNat
    simp only [compareOfLessAndEq, UInt8.lt_iff_toNat_lt, UInt8.toNat_inj]
  rw [hbyte, ofByte, ofByte, List.compare_cons_cons, List.compare_cons_cons,
    compare_digit _ (by omega) _ (by omega), compare_digit _ (by omega) _ (by omega)]
  rcases Nat.lt_trichotomy (a.toNat / 16) (b.toNat / 16) with h | h | h
  · rw [Nat.compare_eq_lt.2 h, Nat.compare_eq_lt.2 (show a.toNat < b.toNat by omega)]
    rfl
  · rw [Nat.compare_eq_eq.2 h, List.compare_nil_nil]
    rcases Nat.lt_trichotomy (a.toNat % 16) (b.toNat % 16) with h' | h' | h'
    · rw [Nat.compare_eq_lt.2 h', Nat.compare_eq_lt.2 (show a.toNat < b.toNat by omega)]
      rfl
    · rw [Nat.compare_eq_eq.2 h', Nat.compare_eq_eq.2 (show a.toNat = b.toNat by omega)]
      rfl
    · rw [Nat.compare_eq_gt.2 h', Nat.compare_eq_gt.2 (show b.toNat < a.toNat by omega)]
      rfl
  · rw [Nat.compare_eq_gt.2 h, Nat.compare_eq_gt.2 (show b.toNat < a.toNat by omega)]
    rfl

/-- Bytes are ordered as their digits. -/
theorem compare_ofBytes (x y : List UInt8) : compare (ofBytes x) (ofBytes y) = compare x y := by
  induction x generalizing y with
  | nil => cases y <;> rfl
  | cons a x ih =>
    cases y with
    | nil => rfl
    | cons b y =>
      rw [List.compare_cons_cons, ← ih, ← compare_ofByte]
      exact compare_append rfl

end Hex

end Text

/-! ### The grammar of names -/

namespace ProposalId

open Text

/-- The digits of a name in groups of 8, 4, 4, 4 and 12, with hyphens between the groups. -/
inductive Grouped (p : ProposalId) : List Char → Prop
  | intro {a b c d e : List Char} (ha : a.length = 8) (hb : b.length = 4) (hc : c.length = 4)
    (hd : d.length = 4) (he : e.length = 12) (h : Hex.Spells p.bytes (a ++ b ++ c ++ d ++ e)) :
    Grouped p (a ++ '-' :: b ++ '-' :: c ++ '-' :: d ++ '-' :: e)

/-- The spellings of a name: its digits, or its digits in groups, alone, in braces or after a
scheme. -/
inductive Spelling (IsScheme : List Char → Prop) (p : ProposalId) : List Char → Prop
  | digits {s : List Char} (h : Hex.Spells p.bytes s) : Spelling IsScheme p s
  | groups {s : List Char} (h : p.Grouped s) : Spelling IsScheme p s
  | braces {s : List Char} (h : p.Grouped s) : Spelling IsScheme p ('{' :: s ++ ['}'])
  | scheme {front s : List Char} (hfront : IsScheme front) (h : p.Grouped s) :
    Spelling IsScheme p (front ++ s)

theorem Spelling.mono {IsScheme IsScheme' : List Char → Prop} {p : ProposalId} {s : List Char}
    (hmono : ∀ front, IsScheme front → IsScheme' front) (h : p.Spelling IsScheme s) :
    p.Spelling IsScheme' s := by
  cases h with
  | digits h => exact .digits h
  | groups h => exact .groups h
  | braces h => exact .braces h
  | scheme hfront h => exact .scheme (hmono _ hfront) h

/-- A text spells a name, with blanks around it or none. -/
def IsSpelledBy (IsScheme : List Char → Prop) (p : ProposalId) (text : String) : Prop :=
  ∃ front s back, text.toList = front ++ s ++ back ∧ (∀ c ∈ front, isBlank c = true) ∧
    (∀ c ∈ back, isBlank c = true) ∧ p.Spelling IsScheme s

/-- The scheme in either case. -/
def IsScheme (front : List Char) : Prop := front.map Char.toLower = "urn:uuid:".toList

/-! ### How long the spellings are -/

variable {p : ProposalId} {s : List Char}

theorem length_of_spells (h : Hex.Spells p.bytes s) : s.length = 32 := by
  rw [Hex.length_of_toBytes? (Hex.toBytes?_eq_some_iff.2 h), p.length_bytes]

theorem Grouped.length (h : p.Grouped s) : s.length = 36 := by
  cases h with
  | intro ha hb hc hd he h => simp [ha, hb, hc, hd, he]

theorem IsScheme.length {front : List Char} (h : IsScheme front) : front.length = 9 := by
  simpa using congrArg List.length h

/-! ### The spellings are read -/

theorem ungroup?_append {a b c d e : List Char} (ha : a.length = 8) (hb : b.length = 4)
    (hc : c.length = 4) (hd : d.length = 4) (he : e.length = 12) :
    ungroup? (a ++ '-' :: b ++ '-' :: c ++ '-' :: d ++ '-' :: e) =
      some (a ++ b ++ c ++ d ++ e) := by
  simp [ungroup?, List.drop_append, List.getElem?_append, ha, hb, hc, hd, he,
    List.drop_of_length_le]

theorem exists_groups {s digits : List Char} (h : ungroup? s = some digits) :
    ∃ a b c d e : List Char, a.length = 8 ∧ b.length = 4 ∧ c.length = 4 ∧ d.length = 4 ∧
      e.length = 12 ∧ s = a ++ '-' :: b ++ '-' :: c ++ '-' :: d ++ '-' :: e ∧
        digits = a ++ b ++ c ++ d ++ e := by
  have hsplit {t : List Char} {i : Nat} (ht : t[i]? = some '-') :
      t = t.take i ++ '-' :: t.drop (i + 1) := by
    obtain ⟨hi, hc⟩ := List.getElem?_eq_some_iff.1 ht
    rw [← hc, List.getElem_cons_drop, List.take_append_drop]
  rw [ungroup?] at h
  split at h
  · rename_i hs
    obtain ⟨hlength, hhyphens⟩ := hs
    simp only [List.all_cons, List.all_nil, Bool.and_true, Bool.and_eq_true,
      decide_eq_true_eq] at hhyphens
    obtain ⟨h₈, h₁₃, h₁₈, h₂₃⟩ := hhyphens
    have hb := hsplit (t := s.drop 9) (i := 4) (by rwa [List.getElem?_drop])
    have hc := hsplit (t := s.drop 14) (i := 4) (by rwa [List.getElem?_drop])
    have hd := hsplit (t := s.drop 19) (i := 4) (by rwa [List.getElem?_drop])
    rw [List.drop_drop] at hb hc hd
    refine ⟨_, _, _, _, _, ?_, ?_, ?_, ?_, ?_, ?_, (Option.some.inj h).symm⟩
    · simp [hlength]
    · simp [hlength]
    · simp [hlength]
    · simp [hlength]
    · simp [hlength]
    · conv_lhs => rw [hsplit h₈, hb, hc, hd]
      simp
  · cases h

theorem ofDigits?_eq_some_iff : ofDigits? s = some p ↔ Hex.Spells p.bytes s := by
  simp only [ofDigits?, Option.bind_eq_bind, Option.bind_eq_some_iff, Hex.toBytes?_eq_some_iff,
    ofBytes?_eq_some_iff]
  constructor
  · rintro ⟨_, h, rfl⟩
    exact h
  · exact fun h => ⟨_, h, rfl⟩

/-- Hyphenated groups are read as the name whose digits they are. -/
theorem ungroup?_bind_eq_some_iff : (ungroup? s >>= ofDigits?) = some p ↔ p.Grouped s := by
  rw [Option.bind_eq_bind, Option.bind_eq_some_iff]
  constructor
  · rintro ⟨digits, hdigits, hp⟩
    obtain ⟨a, b, c, d, e, ha, hb, hc, hd, he, rfl, rfl⟩ := exists_groups hdigits
    exact .intro ha hb hc hd he (ofDigits?_eq_some_iff.1 hp)
  · rintro ⟨ha, hb, hc, hd, he, h⟩
    exact ⟨_, ungroup?_append ha hb hc hd he, ofDigits?_eq_some_iff.2 h⟩

theorem unbrace?_eq_some_iff {t : List Char} : unbrace? s = some t ↔ s = '{' :: t ++ ['}'] := by
  constructor
  · intro h
    unfold unbrace? at h
    split at h
    · rename_i rest
      split at h
      · rename_i hlast
        obtain ⟨front, rfl⟩ := List.getLast?_eq_some_iff.1 hlast
        rw [List.dropLast_concat, Option.some.injEq] at h
        rw [h]
        rfl
      · cases h
    · cases h
  · rintro rfl
    simp [unbrace?]

theorem unscheme?_eq_some_iff {t : List Char} :
    unscheme? s = some t ↔ ∃ front, IsScheme front ∧ s = front ++ t := by
  constructor
  · intro h
    unfold unscheme? at h
    split at h
    · rename_i hscheme
      cases h
      exact ⟨s.take 9, hscheme, (List.take_append_drop 9 s).symm⟩
    · cases h
  · rintro ⟨front, hscheme, rfl⟩
    rw [unscheme?, List.take_left' hscheme.length, List.drop_left' hscheme.length]
    exact if_pos hscheme

/-- **The texts from which a name is read are its spellings.** -/
theorem read?_eq_some_iff : read? s = some p ↔ p.Spelling IsScheme s := by
  constructor
  · intro h
    unfold read? at h
    split at h
    · exact .digits (ofDigits?_eq_some_iff.1 h)
    · exact .groups (ungroup?_bind_eq_some_iff.1 h)
    · rw [bind_assoc, Option.bind_eq_bind, Option.bind_eq_some_iff] at h
      obtain ⟨t, ht, h⟩ := h
      obtain rfl := unbrace?_eq_some_iff.1 ht
      exact .braces (ungroup?_bind_eq_some_iff.1 h)
    · rw [bind_assoc, Option.bind_eq_bind, Option.bind_eq_some_iff] at h
      obtain ⟨t, ht, h⟩ := h
      obtain ⟨front, hfront, rfl⟩ := unscheme?_eq_some_iff.1 ht
      exact .scheme hfront (ungroup?_bind_eq_some_iff.1 h)
    · cases h
  · intro h
    -- The four forms are told apart by their lengths.
    cases h with
    | digits h =>
      rw [read?, length_of_spells h]
      exact ofDigits?_eq_some_iff.2 h
    | groups h =>
      rw [read?, h.length]
      exact ungroup?_bind_eq_some_iff.2 h
    | @braces t h =>
      have hlength : ('{' :: t ++ ['}']).length = 38 := by simp [h.length]
      rw [read?, hlength, unbrace?_eq_some_iff.2 rfl]
      exact ungroup?_bind_eq_some_iff.2 h
    | @scheme front t hfront h =>
      have hlength : (front ++ t).length = 45 := by
        rw [List.length_append, hfront.length, h.length]
      rw [read?, hlength, unscheme?_eq_some_iff.2 ⟨front, hfront, rfl⟩]
      exact ungroup?_bind_eq_some_iff.2 h

/-! ### Blanks around a spelling -/

theorem IsScheme.not_isBlank {front : List Char} (h : IsScheme front) :
    ∀ c ∈ front, isBlank c = false := by
  have hscheme : ∀ c ∈ "urn:uuid:".toList, isBlank c = false := by simp [isBlank]
  intro c hc
  by_contra hblank
  rw [Bool.not_eq_false] at hblank
  -- A blank is its own lower case, so it would stand in the scheme itself.
  have hlower := hscheme c.toLower (h ▸ List.mem_map_of_mem hc)
  rw [toLower_of_isBlank hblank, hblank] at hlower
  cases hlower

/-- The characters of a name in groups are the hyphen and its digits. -/
theorem forall_mem_groups {P : Char → Prop} {a b c d e : List Char} :
    (∀ x ∈ a ++ '-' :: b ++ '-' :: c ++ '-' :: d ++ '-' :: e, P x) ↔
      P '-' ∧ ∀ x ∈ a ++ b ++ c ++ d ++ e, P x := by
  simp only [List.mem_append, List.mem_cons, or_imp, forall_and, forall_eq]
  tauto

theorem Spelling.not_isBlank (h : p.Spelling IsScheme s) : ∀ c ∈ s, isBlank c = false := by
  have hgrouped {s : List Char} (h : p.Grouped s) : ∀ c ∈ s, isBlank c = false := by
    cases h with
    | intro _ _ _ _ _ h => exact forall_mem_groups.2 ⟨by decide, h.not_isBlank⟩
  cases h with
  | digits h => exact h.not_isBlank
  | groups h => exact hgrouped h
  | braces h =>
    intro c hc
    simp only [List.cons_append, List.mem_cons, List.mem_append, List.not_mem_nil, or_false] at hc
    rcases hc with rfl | hc | rfl
    · decide
    · exact hgrouped h c hc
    · decide
  | scheme hfront h =>
    intro c hc
    rcases List.mem_append.1 hc with hc | hc
    · exact hfront.not_isBlank c hc
    · exact hgrouped h c hc

/-- A text is read as the name that it spells, and no other text is read. -/
theorem parse_eq_ok_iff {text : String} : parse text = .ok p ↔ p.IsSpelledBy IsScheme text := by
  have hread : parse text = .ok p ↔ read? (trim text.toList) = some p := by
    rw [parse]
    cases read? (trim text.toList) <;> simp
  rw [hread, read?_eq_some_iff]
  constructor
  · intro h
    obtain ⟨front, back, htext, hfront, hback⟩ := exists_trim text.toList
    exact ⟨front, _, back, htext, hfront, hback, h⟩
  · rintro ⟨front, s, back, htext, hfront, hback, h⟩
    rwa [htext, trim_append hfront hback h.not_isBlank]

theorem parse_eq_error_iff {text : String} {e : IdentifierError} :
    parse text = .error e ↔
      e = .notProposal text ∧ ∀ p : ProposalId, ¬ p.IsSpelledBy IsScheme text := by
  simp only [← parse_eq_ok_iff, parse]
  cases read? (trim text.toList) <;> simp [eq_comm]

/-! ### The written form -/

theorem group_append {a b c d e : List Char} (ha : a.length = 8) (hb : b.length = 4)
    (hc : c.length = 4) (hd : d.length = 4) :
    group (a ++ b ++ c ++ d ++ e) = a ++ '-' :: b ++ '-' :: c ++ '-' :: d ++ '-' :: e := by
  simp [group, List.drop_append, ha, hb, hc, hd, List.drop_of_length_le]

/-- The written form of a name, in its groups. -/
theorem exists_write (p : ProposalId) : ∃ a b c d e : List Char, a.length = 8 ∧ b.length = 4 ∧
    c.length = 4 ∧ d.length = 4 ∧ e.length = 12 ∧ Hex.ofBytes p.bytes = a ++ b ++ c ++ d ++ e ∧
      p.write = a ++ '-' :: b ++ '-' :: c ++ '-' :: d ++ '-' :: e := by
  have hlength : (Hex.ofBytes p.bytes).length = 32 := by
    rw [Hex.length_ofBytes, p.length_bytes]
  refine ⟨_, _, _, _, _, ?_, ?_, ?_, ?_, ?_, ?_, rfl⟩
  · simp [hlength]
  · simp [hlength]
  · simp [hlength]
  · simp [hlength]
  · simp [hlength]
  · rw [← List.take_add, ← List.take_add, ← List.take_add, List.take_append_drop]

theorem grouped_write (p : ProposalId) : p.Grouped p.write := by
  obtain ⟨a, b, c, d, e, ha, hb, hc, hd, he, hdigits, hwrite⟩ := p.exists_write
  rw [hwrite]
  exact .intro ha hb hc hd he (hdigits ▸ Hex.spells_ofBytes p.bytes)

/-- Of the spellings in groups, the written form is the one without capital letters. -/
theorem grouped_and_not_isUpper_iff :
    p.Grouped s ∧ (∀ c ∈ s, c.isUpper = false) ↔ s = p.write := by
  constructor
  · rintro ⟨⟨ha, hb, hc, hd, he, h⟩, hs⟩
    have hdigits := h.eq_ofBytes (forall_mem_groups.1 hs).2
    rw [write, ← hdigits, group_append ha hb hc hd]
  · rintro rfl
    refine ⟨p.grouped_write, ?_⟩
    obtain ⟨a, b, c, d, e, -, -, -, -, -, hdigits, hwrite⟩ := p.exists_write
    rw [hwrite, forall_mem_groups, ← hdigits]
    exact ⟨by decide, Hex.not_isUpper_of_mem p.bytes⟩

/-- Names are ordered as their written forms. -/
theorem compare_write (p q : ProposalId) : compare p.write q.write = compare p q := by
  obtain ⟨a, b, c, d, e, ha, hb, hc, hd, he, hp, hwrite⟩ := p.exists_write
  obtain ⟨a', b', c', d', e', ha', hb', hc', hd', he', hq, hwrite'⟩ := q.exists_write
  have hhyphen (s t : List Char) : compare ('-' :: s) ('-' :: t) = compare s t := by
    rw [List.compare_cons_cons]
    rfl
  -- The hyphens stand at the same places of both.
  rw [compare_def, ← Hex.compare_ofBytes, hp, hq, hwrite, hwrite']
  simp [compare_append, hhyphen, ha, hb, hc, hd, ha', hb', hc', hd', -List.append_assoc]

/-! ### The theorem -/

/-- **A name is read from its spellings and from no other text.** A spelling is the 32 digits of
the name or these digits in groups, alone, in braces or after the scheme, with every letter in
either case and blanks around it or none; another text is refused and reported as it was given.
The written form is a spelling, the only one in groups without capital letters, and names are
ordered as their bytes and as their written forms. -/
theorem parse_reads_exactly_spellings :
    (∀ (p : ProposalId) (text : String), parse text = .ok p ↔ p.IsSpelledBy IsScheme text) ∧
      (∀ (text : String) (e : IdentifierError), parse text = .error e ↔
        e = .notProposal text ∧ ∀ p : ProposalId, ¬ p.IsSpelledBy IsScheme text) ∧
      (∀ p : ProposalId, parse (toString p) = .ok p) ∧
      (∀ (p : ProposalId) (s : List Char),
        p.Grouped s ∧ (∀ c ∈ s, c.isUpper = false) ↔ s = (toString p).toList) ∧
      ∀ p q : ProposalId, compare p q = compare p.bytes q.bytes ∧
        compare p q = compare (toString p) (toString q) := by
  have hwrite (p : ProposalId) : (toString p).toList = p.write := String.toList_ofList
  refine ⟨fun _ _ => parse_eq_ok_iff, fun _ _ => parse_eq_error_iff, fun p => ?_, fun p s => ?_,
    fun p q => ⟨compare_def p q, ?_⟩⟩
  · refine parse_eq_ok_iff.2 ⟨[], p.write, [], ?_, nofun, nofun, .groups p.grouped_write⟩
    rw [hwrite, List.nil_append, List.append_nil]
  · rw [hwrite]
    exact grouped_and_not_isUpper_iff
  · rw [← compare_toList, hwrite, hwrite, compare_write]

/-- The scheme may be in capital letters. -/
theorem parse_capital_scheme :
    (∀ p : ProposalId, ¬ p.IsSpelledBy (· = "urn:uuid:".toList)
      "URN:UUID:6f1c8a52-0c1e-4d3b-9a57-0c1b2d3e4f50") ∧
    parse "URN:UUID:6f1c8a52-0c1e-4d3b-9a57-0c1b2d3e4f50" =
      .ok ⟨[0x6F, 0x1C, 0x8A, 0x52, 0x0C, 0x1E, 0x4D, 0x3B, 0x9A, 0x57, 0x0C, 0x1B, 0x2D, 0x3E,
        0x4F, 0x50], rfl⟩ := by
  constructor
  · rintro p ⟨front, s, back, htext, hfront, hback, h⟩
    have hs : trim "URN:UUID:6f1c8a52-0c1e-4d3b-9a57-0c1b2d3e4f50".toList = s := by
      have hscheme : ∀ front, front = "urn:uuid:".toList → IsScheme front := by
        rintro _ rfl
        rw [IsScheme]
        decide +kernel
      rw [htext, trim_append hfront hback (h.mono hscheme).not_isBlank]
    have hlength : s.length = 45 := by
      rw [← hs]
      decide +kernel
    cases h with
    | digits h => simp [length_of_spells h] at hlength
    | groups h => simp [h.length] at hlength
    | braces h => simp [h.length] at hlength
    | scheme hfront h =>
      have hhead : (trim "URN:UUID:6f1c8a52-0c1e-4d3b-9a57-0c1b2d3e4f50".toList).head? =
          "urn:uuid:".toList.head? := by
        rw [hs, hfront]
        rfl
      revert hhead
      decide +kernel
  · decide +kernel

end ProposalId

end DelegatedVoting
