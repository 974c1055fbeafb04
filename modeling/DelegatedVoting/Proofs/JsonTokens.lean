import DelegatedVoting.Json.Token

/-!
# Texts are cut into the tokens that they spell

A token can be spelled in many ways: a character of a quoted text stands for itself or is escaped,
an exponent has a letter in either case, and there may be blanks in front of every token. However
the tokens are spelled, a text is cut into them, if whatever follows a number cannot be read as more
of it.

* `Piece.Spells`, `SpellsAll`, `Numeral.SpellsUnsigned`, `Token.Spells`: the spellings of a part of
  a quoted text, of all of them, of a number, and of a token;
* `Lexes`, `Separated`: the spellings of a list of tokens, and where numbers are told apart from
  what follows;
* `quoted_append`, `numeral_append`, `tokensOnto_append`: what is spelled at the front is read;
* `tokens_of_lexes`: a text is cut into the tokens that it spells.
-/

namespace DelegatedVoting.Json

open DelegatedVoting.Text (Decimal.isDigit Hex.value?)

/-! ### Spellings -/

/-- The spellings of a part of a quoted text: a character that stands for itself, a backslash and a
letter, or the number of a unit in hexadecimal digits. -/
inductive Piece.Spells : Piece → List Char → Prop
  | plain {c : Char} : c ≠ '"' → c ≠ '\\' → 32 ≤ c.toNat → Spells (.plain (some c)) [c]
  | escape {c e : Char} : unescape? e = some c → Spells (.plain (some c)) ['\\', e]
  | unit {a b c d : Char} {h i j k : Nat} : Hex.value? a = some h → Hex.value? b = some i →
    Hex.value? c = some j → Hex.value? d = some k →
    Spells (.unit (h * 4096 + i * 256 + j * 16 + k)) ['\\', 'u', a, b, c, d]

/-- The spellings of the parts of a quoted text, one after the other. -/
inductive SpellsAll : List Piece → List Char → Prop
  | nil : SpellsAll [] []
  | cons {p : Piece} {pieces : List Piece} {s t : List Char} : p.Spells s → SpellsAll pieces t →
    SpellsAll (p :: pieces) (s ++ t)

/-- Digits, at least one of them. -/
def AreDigits (ds : List Char) : Prop := ds ≠ [] ∧ ∀ c ∈ ds, Decimal.isDigit c = true

/-- The spellings of a fraction. -/
inductive SpellsFraction : Option (List Char) → List Char → Prop
  | absent : SpellsFraction none []
  | given {ds : List Char} : AreDigits ds → SpellsFraction (some ds) ('.' :: ds)

/-- The spellings of the sign of an exponent. -/
inductive SpellsSign : Bool → List Char → Prop
  | absent : SpellsSign false []
  | plus : SpellsSign false ['+']
  | minus : SpellsSign true ['-']

/-- The spellings of an exponent. -/
inductive SpellsExponent : Option (Bool × List Char) → List Char → Prop
  | absent : SpellsExponent none []
  | given {e : Char} {negative : Bool} {sign ds : List Char} : e = 'e' ∨ e = 'E' →
    SpellsSign negative sign → AreDigits ds → SpellsExponent (some (negative, ds)) (e :: sign ++ ds)

/-- The spellings of a number without its sign. There is no needless zero in front. -/
def Numeral.SpellsUnsigned (n : Numeral) (s : List Char) : Prop :=
  AreDigits n.whole ∧ (∀ c ds, n.whole ≠ '0' :: c :: ds) ∧
    ∃ fraction exponent, SpellsFraction n.fraction fraction ∧ SpellsExponent n.exponent exponent ∧
      s = n.whole ++ fraction ++ exponent

/-- The spellings of a token. -/
inductive Token.Spells : Token → List Char → Prop
  | openBrace : Spells .openBrace ['{']
  | closeBrace : Spells .closeBrace ['}']
  | openBracket : Spells .openBracket ['[']
  | closeBracket : Spells .closeBracket [']']
  | comma : Spells .comma [',']
  | colon : Spells .colon [':']
  | null : Spells .null ['n', 'u', 'l', 'l']
  | flagTrue : Spells (.flag true) ['t', 'r', 'u', 'e']
  | flagFalse : Spells (.flag false) ['f', 'a', 'l', 's', 'e']
  | text {pieces : List Piece} {s : List Char} : SpellsAll pieces s →
    Spells (.text pieces) ('"' :: s ++ ['"'])
  | number {n : Numeral} {s : List Char} : n.negative = false → n.SpellsUnsigned s →
    Spells (.number n) s
  | negative {n : Numeral} {s : List Char} : n.negative = true → n.SpellsUnsigned s →
    Spells (.number n) ('-' :: s)

/-- The spellings of a list of tokens, with blanks in front of every token and at the end. -/
inductive Lexes : List Token → List Char → Prop
  | nil : Lexes [] []
  | blank {c : Char} {ts : List Token} {s : List Char} : isSpace c = true → Lexes ts s →
    Lexes ts (c :: s)
  | token {t : Token} {ts : List Token} {s u : List Char} : t.Spells s → Lexes ts u →
    Lexes (t :: ts) (s ++ u)

/-! ### Quoted texts are read -/

theorem quoted_plain {c : Char} (hquote : c ≠ '"') (hslash : c ≠ '\\') (hcontrol : 32 ≤ c.toNat)
    (read : List Piece) (rest : List Glyph) :
    quoted read (some c :: rest) = quoted (.plain (some c) :: read) rest := by
  rw [quoted, if_neg (Nat.not_lt.2 hcontrol)]
  all_goals simp_all

theorem quoted_escape {c e : Char} (h : unescape? e = some c) (read : List Piece)
    (rest : List Glyph) :
    quoted read (some '\\' :: some e :: rest) = quoted (.plain (some c) :: read) rest := by
  rw [quoted, h]
  -- the letter in front of the number of a unit stands for nothing else
  rintro _ _ _ _ _ - rfl
  cases h

/-- A spelled part of a quoted text is read. -/
theorem Piece.Spells.quoted_append {p : Piece} {s : List Char} (h : p.Spells s) (read : List Piece)
    (rest : List Glyph) : quoted read (s.map some ++ rest) = quoted (p :: read) rest := by
  cases h with
  | plain hquote hslash hcontrol => exact quoted_plain hquote hslash hcontrol read rest
  | escape h => exact quoted_escape h read rest
  | unit ha hb hc hd =>
    simp only [List.map_cons, List.map_nil, List.cons_append, List.nil_append]
    rw [quoted]
    simp only [hexDigit?, Option.bind_some, ha, hb, hc, hd]

/-- A spelled quoted text is read up to its closing quote. -/
theorem SpellsAll.quoted_append {pieces : List Piece} {s : List Char} (h : SpellsAll pieces s)
    (read : List Piece) (rest : List Glyph) :
    quoted read (s.map some ++ some '"' :: rest) = some (read.reverse ++ pieces, rest) := by
  induction h generalizing read with
  | nil => rw [List.map_nil, List.nil_append, quoted, List.append_nil]
  | @cons p pieces s t hp _ ih =>
    rw [List.map_append, List.append_assoc, hp.quoted_append, ih, List.reverse_cons,
      List.append_assoc, List.singleton_append]

/-! ### Numbers are read -/

/-- Whether a character can be part of a number behind its first digit. -/
def continuesNumber (c : Char) : Bool := Decimal.isDigit c || c == '.' || c == 'e' || c == 'E'

/-- What follows a number cannot be read as more of it. -/
def EndsNumber (rest : List Glyph) : Prop :=
  ∀ c rest', rest = some c :: rest' → continuesNumber c = false

section Numbers

variable {ds : List Char} {rest : List Glyph}

theorem digitsOnto_append (hds : ∀ c ∈ ds, Decimal.isDigit c = true)
    (hrest : ∀ c rest', rest = some c :: rest' → Decimal.isDigit c = false) (read : List Char) :
    digitsOnto read (ds.map some ++ rest) = (read.reverse ++ ds, rest) := by
  induction ds generalizing read with
  | nil =>
    rw [List.map_nil, List.nil_append, List.append_nil]
    match rest with
    | [] | none :: _ => rfl
    | some c :: rest' => rw [digitsOnto, hrest c rest' rfl]; rfl
  | cons c ds ih =>
    obtain ⟨hc, hds⟩ := List.forall_mem_cons.1 hds
    rw [List.map_cons, List.cons_append, digitsOnto, if_pos hc, ih hds, List.reverse_cons,
      List.append_assoc, List.singleton_append]

/-- Digits are read as far as they go. -/
theorem digits_append (hds : ∀ c ∈ ds, Decimal.isDigit c = true)
    (hrest : ∀ c rest', rest = some c :: rest' → Decimal.isDigit c = false) :
    digits (ds.map some ++ rest) = (ds, rest) := digitsOnto_append hds hrest []

theorem EndsNumber.not_isDigit (h : EndsNumber rest) :
    ∀ c rest', rest = some c :: rest' → Decimal.isDigit c = false := fun c rest' hrest => by
  have := h c rest' hrest
  simp_all [continuesNumber]

theorem AreDigits.exists_cons (h : AreDigits ds) :
    ∃ c ds', ds = c :: ds' ∧ Decimal.isDigit c = true := by
  obtain ⟨hne, hds⟩ := h
  obtain ⟨c, ds', rfl⟩ := List.exists_cons_of_ne_nil hne
  exact ⟨c, ds', rfl, hds c List.mem_cons_self⟩

theorem ne_of_isDigit {c d : Char} (hc : Decimal.isDigit c = true)
    (hd : Decimal.isDigit d = false) : c ≠ d := fun heq => by
  rw [heq, hd] at hc
  cases hc

/-- A sign, or none, is read in front of digits. -/
theorem SpellsSign.exponentSign_append {negative : Bool} {sign : List Char}
    (h : SpellsSign negative sign) (hds : AreDigits ds) (rest : List Glyph) :
    exponentSign ((sign ++ ds).map some ++ rest) = (negative, ds.map some ++ rest) := by
  cases h with
  | plus | minus => rfl
  | absent =>
    obtain ⟨c, ds, rfl, hc⟩ := hds.exists_cons
    rw [List.nil_append, List.map_cons, List.cons_append, exponentSign]
    · exact fun _ heq => ne_of_isDigit hc (by decide) (Option.some.inj (List.cons_eq_cons.1 heq).1)
    · exact fun _ heq => ne_of_isDigit hc (by decide) (Option.some.inj (List.cons_eq_cons.1 heq).1)

/-- A spelled exponent is read. -/
theorem SpellsExponent.exponent_append {e : Option (Bool × List Char)} {s : List Char}
    (h : SpellsExponent e s) (hrest : EndsNumber rest) :
    exponent (s.map some ++ rest) = some (e, rest) := by
  cases h with
  | absent =>
    rw [List.map_nil, List.nil_append, exponent]
    all_goals
      rintro rest' rfl
      cases hrest _ _ rfl
  | @given letter negative sign ds hletter hsign hds =>
    have hdigits : exponentDigits ((sign ++ ds).map some ++ rest) =
        some (some (negative, ds), rest) := by
      rw [exponentDigits, hsign.exponentSign_append hds, digits_append hds.2 hrest.not_isDigit]
      obtain ⟨c, ds, rfl, -⟩ := hds.exists_cons
      rfl
    rcases hletter with rfl | rfl <;> exact hdigits

/-- What a spelled exponent begins with is no digit. -/
theorem SpellsExponent.not_isDigit {e : Option (Bool × List Char)} {s : List Char}
    (h : SpellsExponent e s) (hrest : EndsNumber rest) :
    ∀ c rest', s.map some ++ rest = some c :: rest' → Decimal.isDigit c = false := by
  cases h with
  | absent => exact hrest.not_isDigit
  | given hletter =>
    rintro c rest' heq
    obtain rfl := Option.some.inj (List.cons_eq_cons.1 heq).1
    rcases hletter with rfl | rfl <;> rfl

/-- A spelled fraction is read. -/
theorem SpellsFraction.fraction_append {f : Option (List Char)} {s : List Char}
    (h : SpellsFraction f s)
    (hdigit : ∀ c rest', rest = some c :: rest' → Decimal.isDigit c = false)
    (hpoint : ∀ rest', rest ≠ some '.' :: rest') :
    fraction (s.map some ++ rest) = some (f, rest) := by
  cases h with
  | absent =>
    rw [List.map_nil, List.nil_append, fraction]
    exact hpoint
  | @given ds hds =>
    rw [List.map_cons, List.cons_append, fraction, digits_append hds.2 hdigit]
    obtain ⟨c, ds, rfl, -⟩ := hds.exists_cons
    rfl

/-- What a spelled fraction begins with is no digit, if what follows begins with none. -/
theorem SpellsFraction.not_isDigit {f : Option (List Char)} {s : List Char}
    (h : SpellsFraction f s)
    (hdigit : ∀ c rest', rest = some c :: rest' → Decimal.isDigit c = false) :
    ∀ c rest', s.map some ++ rest = some c :: rest' → Decimal.isDigit c = false := by
  cases h with
  | absent => exact hdigit
  | given =>
    rintro c rest' heq
    obtain rfl := Option.some.inj (List.cons_eq_cons.1 heq).1
    rfl

theorem SpellsExponent.ne_point {e : Option (Bool × List Char)} {s : List Char}
    (h : SpellsExponent e s) (hrest : EndsNumber rest) (rest' : List Glyph) :
    s.map some ++ rest ≠ some '.' :: rest' := by
  cases h with
  | absent =>
    rintro heq
    cases hrest _ _ heq
  | given hletter =>
    intro heq
    have := Option.some.inj (List.cons_eq_cons.1 heq).1
    subst this
    simp at hletter

/-- **A spelled number is read**, if what follows cannot be read as more of it. -/
theorem Numeral.SpellsUnsigned.numeral_append {n : Numeral} {s : List Char}
    (h : n.SpellsUnsigned s) (hrest : EndsNumber rest) :
    numeral n.negative (s.map some ++ rest) = some (n, rest) := by
  obtain ⟨negative, whole, fraction, exponent⟩ := n
  obtain ⟨hwhole, hzero, f, e, hf, he, rfl⟩ := h
  dsimp only at hwhole hzero hf he
  rw [List.map_append, List.map_append, List.append_assoc, List.append_assoc, numeral,
    digits_append hwhole.2 (hf.not_isDigit (he.not_isDigit hrest))]
  split
  · rename_i heq
    exact absurd (Prod.mk.inj heq).1 hwhole.1
  · rename_i heq
    exact absurd (Prod.mk.inj heq).1 (hzero _ _)
  · rename_i heq
    obtain ⟨rfl, rfl⟩ := Prod.mk.inj heq
    rw [hf.fraction_append (he.not_isDigit hrest) (he.ne_point hrest)]
    dsimp only
    rw [he.exponent_append hrest]

end Numbers

/-! ### Tokens are read -/

/-- A number is not followed by anything that can be read as more of it. -/
def Token.EndsBefore (t : Token) (rest : List Glyph) : Prop :=
  match t with
  | .number _ => EndsNumber rest
  | _ => True

/-- A digit begins a number. -/
theorem tokensOnto_number {c : Char} (hc : Decimal.isDigit c = true) (read : List Token)
    {s rest : List Glyph} {n : Numeral} (h : numeral false (some c :: s) = some (n, rest)) :
    tokensOnto read (some c :: s) = tokensOnto (.number n :: read) rest := by
  have hspace : isSpace c = false := by
    unfold isSpace
    simp [ne_of_isDigit hc (show Decimal.isDigit ' ' = false by decide),
      ne_of_isDigit hc (show Decimal.isDigit '\n' = false by decide),
      ne_of_isDigit hc (show Decimal.isDigit '\t' = false by decide),
      ne_of_isDigit hc (show Decimal.isDigit '\r' = false by decide)]
  rw [tokensOnto]
  · rw [hspace]
    simp only [Bool.false_eq_true, if_false]
    split
    · rename_i heq
      rw [h] at heq
      cases heq
      rfl
    · rename_i heq
      rw [h] at heq
      cases heq
  all_goals
    intros
    subst_vars
    exact absurd hc (by decide)

/-- **A spelled token is read.** -/
theorem Token.Spells.tokensOnto_append {t : Token} {s : List Char} (h : t.Spells s)
    {rest : List Glyph} (hrest : t.EndsBefore rest) (read : List Token) :
    tokensOnto read (s.map some ++ rest) = tokensOnto (t :: read) rest := by
  cases h with
  | openBrace | closeBrace | openBracket | closeBracket | comma | colon =>
    exact tokensOnto.eq_def _ _
  | null | flagTrue | flagFalse => exact tokensOnto.eq_def _ _
  | @text pieces s hs =>
    have hquoted := hs.quoted_append [] rest
    rw [List.map_append, List.map_cons, List.append_assoc, List.map_singleton,
      List.singleton_append, List.cons_append, tokensOnto]
    split
    · rename_i heq
      rw [hquoted] at heq
      cases heq
      rfl
    · rename_i heq
      rw [hquoted] at heq
      cases heq
  | @negative n s hn hs =>
    have hnumeral := hs.numeral_append hrest
    rw [hn] at hnumeral
    rw [List.map_cons, List.cons_append, tokensOnto]
    split
    · rename_i heq
      rw [hnumeral] at heq
      cases heq
      rfl
    · rename_i heq
      rw [hnumeral] at heq
      cases heq
  | @number n s hn hs =>
    have hnumeral := hs.numeral_append hrest
    rw [hn] at hnumeral
    obtain ⟨c, ds, hwhole, hc⟩ := hs.1.exists_cons
    obtain ⟨-, -, f, e, -, -, rfl⟩ := hs
    rw [hwhole] at hnumeral ⊢
    exact tokensOnto_number hc read hnumeral

/-! ### Lists of tokens are read -/

/-- What can stand behind a number. No text spells the last of these. -/
def Token.closes : Token → Bool
  | .comma | .closeBracket | .closeBrace | .malformed => true
  | _ => false

/-- Every number is the last token or stands in front of a comma or of the end of a list. -/
def Separated : List Token → Prop
  | .number _ :: t :: ts => t.closes = true ∧ Separated (t :: ts)
  | _ :: ts => Separated ts
  | [] => True

theorem Separated.tail {t : Token} {ts : List Token} (h : Separated (t :: ts)) : Separated ts := by
  cases t with
  | number n =>
    cases ts with
    | nil => trivial
    | cons t ts => exact h.2
  | _ => exact h

theorem Separated.closes {n : Numeral} {ts : List Token} (h : Separated (.number n :: ts)) :
    ∀ t ∈ ts.head?, t.closes = true := by
  rintro t ht
  obtain ⟨ts, rfl⟩ := List.head?_eq_some_iff.1 ht
  exact h.1

theorem isSpace_eq_true_iff {c : Char} :
    isSpace c = true ↔ c = ' ' ∨ c = '\n' ∨ c = '\t' ∨ c = '\r' := by
  simp [isSpace, or_assoc]

/-- What stands behind a number ends it. -/
theorem Lexes.endsNumber {ts : List Token} {s : List Char} (h : Lexes ts s)
    (hts : ∀ t ∈ ts.head?, t.closes = true) : EndsNumber (s.map some) := by
  rintro d rest' heq
  cases h with
  | nil => cases heq
  | blank hc =>
    obtain rfl := Option.some.inj (List.cons_eq_cons.1 heq).1
    rcases isSpace_eq_true_iff.1 hc with rfl | rfl | rfl | rfl <;> rfl
  | token hs =>
    cases hs with
    | comma | closeBracket | closeBrace =>
      obtain rfl := Option.some.inj (List.cons_eq_cons.1 heq).1
      rfl
    | _ => cases hts _ rfl

/-- A blank is skipped. -/
theorem tokensOnto_blank {c : Char} (hc : isSpace c = true) (read : List Token) (s : List Glyph) :
    tokensOnto read (some c :: s) = tokensOnto read s := by
  rcases isSpace_eq_true_iff.1 hc with rfl | rfl | rfl | rfl <;> simp [tokensOnto, isSpace]

theorem tokensOnto_of_lexes {ts : List Token} {s : List Char} (h : Lexes ts s) (hts : Separated ts)
    (read : List Token) : tokensOnto read (s.map some) = read.reverse ++ ts := by
  induction h generalizing read with
  | nil => rw [List.map_nil, tokensOnto, List.append_nil]
  | blank hc _ ih => rw [List.map_cons, tokensOnto_blank hc, ih hts]
  | @token t ts s u ht hu ih =>
    have hends : t.EndsBefore (u.map some) := by
      cases t with
      | number n => exact hu.endsNumber hts.closes
      | _ => trivial
    rw [List.map_append, ht.tokensOnto_append hends, ih hts.tail, List.reverse_cons,
      List.append_assoc, List.singleton_append]

/-- **A text is cut into the tokens that it spells.** -/
theorem tokens_of_lexes {ts : List Token} {s : List Char} (h : Lexes ts s) (hts : Separated ts) :
    tokens (s.map some) = ts := tokensOnto_of_lexes h hts []

end DelegatedVoting.Json
