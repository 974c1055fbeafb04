import DelegatedVoting.Toml.Text

/-!
# TOML texts are read back

Each style has its own way to end too early: at a quote within the text, at a row of three quotes,
or at a backslash. What is written for a text avoids it, so the text is read back together with
whatever follows it.

* `Escaped`, `escaped_escape`: how a character is written between quotes;
* `basic_flatMap_escape`, `literal_append`: texts on one line;
* `basicLines_quote`, `basicLines_close`: quotes within a text of many lines and at its end, and
  `literalLines_apostrophe`, `literalLines_close` for apostrophes;
* `basicLines_escapeLines`, `literalLines_append`: texts of many lines;
* `Style.Suits`, `Style.suits_for`: the texts that a style without escapes can hold;
* `read?_writeIn`, `read?_write`: written texts are read back.
-/

namespace DelegatedVoting.Toml.Text

/-! ### Classes of characters -/

/-- A character of a class is none of the others. -/
theorem ne_of_class {p : Char → Bool} {c d : Char} (hc : p c = true) (hd : p d = false) :
    c ≠ d := by
  rintro rfl
  rw [hc] at hd
  cases hd

/-! ### Escapes -/

/-- A character that may stand for itself breaks no line. -/
theorem ne_break_of_isPlain {c : Char} (h : isPlain c = true) : c ≠ '\n' ∧ c ≠ '\r' :=
  ⟨ne_of_class h (by decide), ne_of_class h (by decide)⟩

theorem isPlain_of_not_needsEscape {c : Char} (h : needsEscape c = false) (hbreak : c ≠ '\n') :
    isPlain c = true := by
  simpa [needsEscape, hbreak] using h

/-- The digits of a character that controls are the number of the character. -/
theorem numbered?_digit {c : Char} (h : isPlain c = false) :
    numbered? ['0', '0', digit (c.toNat / 16), digit (c.toNat % 16)] = some c := by
  have hc : c.toNat < 128 := by
    simp only [isPlain, Bool.or_eq_false_iff, Bool.and_eq_false_iff, decide_eq_false_iff_not] at h
    omega
  have hall : ∀ n < 128, numbered? ['0', '0', digit (n / 16), digit (n % 16)] =
      some (Char.ofNat n) := by
    decide +kernel
  rw [hall c.toNat hc, Char.ofNat_toNat]

/-- How a character is written between quotes: as itself, by a letter or by its number. -/
inductive Escaped (c : Char) : List Char → Prop
  | itself (hplain : isPlain c = true) (hquote : c ≠ '"') (hbackslash : c ≠ '\\') : Escaped c [c]
  | letter {e : Char} (he : unescape? e = some c) : Escaped c ['\\', e]
  | number {h l : Char} (hc : numbered? ['0', '0', h, l] = some c) :
    Escaped c ['\\', 'u', '0', '0', h, l]

theorem escaped_escape (c : Char) : Escaped c (escape c) := by
  unfold escape
  split
  · exact .letter rfl
  · exact .letter rfl
  · exact .letter rfl
  · exact .letter rfl
  · exact .letter rfl
  · exact .letter rfl
  · exact .letter rfl
  · split
    · exact .itself (by assumption) (by assumption) (by assumption)
    · exact .number (numbered?_digit (Bool.eq_false_iff.2 (by assumption)))

/-- A letter that stands for a character is neither a blank nor the mark of a number. -/
theorem isLetter_of_unescape? {c e : Char} (h : unescape? e = some c) :
    e ≠ 'u' ∧ e ≠ 'U' ∧ e ≠ '\n' ∧ e ≠ '\r' ∧ isBlank e = false := by
  unfold unescape? at h
  split at h
  all_goals first | decide | cases h

theorem basic_append {c : Char} {written : List Char} (h : Escaped c written) (rest : List Char) :
    basic (written ++ rest) = prepend c (basic rest) := by
  cases h with
  | itself hplain hquote hbackslash => simp [basic, hplain, hbackslash]
  | letter he =>
    obtain ⟨hu, hU, -⟩ := isLetter_of_unescape? he
    simp [basic, he, hu, hU]
  | number hc => simp [basic, hc]

theorem basicLines_append {c : Char} {written : List Char} (h : Escaped c written)
    (rest : List Char) :
    basicLines .none (written ++ rest) = prepend c (basicLines .none rest) := by
  cases h with
  | itself hplain hquote hbackslash =>
    obtain ⟨hbreak, hreturn⟩ := ne_break_of_isPlain hplain
    rw [List.singleton_append, basicLines]
    all_goals simp [hplain, hquote, hbackslash, hbreak, hreturn]
  | letter he =>
    obtain ⟨hu, hU, hbreak, hreturn, hblank⟩ := isLetter_of_unescape? he
    rw [List.cons_append, List.singleton_append, basicLines]
    all_goals simp [he, hu, hU, hbreak, hreturn, hblank]
  | number hc => simp [basicLines, hc]

/-! ### Texts on one line -/

theorem literal_append {s : List Char} (hs : ∀ c ∈ s, isPlain c = true ∧ c ≠ '\'')
    (rest : List Char) : literal (s ++ '\'' :: rest) = some (s, rest) := by
  induction s with
  | nil => rfl
  | cons c s ih =>
    simp only [List.mem_cons, forall_eq_or_imp] at hs
    obtain ⟨⟨hplain, hquote⟩, hs⟩ := hs
    rw [List.cons_append, literal, if_pos hplain, ih hs]
    · rfl
    · exact hquote

theorem basic_flatMap_escape (s rest : List Char) :
    basic (s.flatMap escape ++ '"' :: rest) = some (s, rest) := by
  induction s with
  | nil => rfl
  | cons c s ih =>
    rw [List.flatMap_cons, List.append_assoc, basic_append (escaped_escape c), ih]
    rfl

/-! ### Quotes in a row -/

/-- A quote that does not begin a row of three is read as itself. -/
theorem basicLines_quote {rest : List Char} (h : ¬ ['"', '"'] <+: rest) :
    basicLines .none ('"' :: rest) = prepend '"' (basicLines .none rest) := by
  have hrow {tail : List Char} (hrest : rest = '"' :: '"' :: tail) : False := h ⟨tail, hrest.symm⟩
  rw [basicLines]
  all_goals simp [isPlain]
  all_goals exact fun _ => hrow

theorem literalLines_apostrophe {rest : List Char} (h : ¬ ['\'', '\''] <+: rest) :
    literalLines ('\'' :: rest) = prepend '\'' (literalLines rest) := by
  have hrow {tail : List Char} (hrest : rest = '\'' :: '\'' :: tail) : False :=
    h ⟨tail, hrest.symm⟩
  rw [literalLines]
  all_goals simp [isPlain]
  all_goals exact fun _ => hrow

variable {rest : List Char}

/-- Two quotes at most stand before the three that close a text. -/
theorem basicLines_close (hrest : rest.head? ≠ some '"') {n : Nat} (hn : n ≤ 2) :
    basicLines .none (List.replicate n '"' ++ '"' :: '"' :: '"' :: rest) =
      some (List.replicate n '"', rest) := by
  have hrest (tail : List Char) : rest ≠ '"' :: tail := by
    rintro rfl
    exact hrest rfl
  match n, hn with
  | 0, _ | 1, _ | 2, _ => simp [List.replicate, basicLines, hrest]

theorem literalLines_close (hrest : rest.head? ≠ some '\'') {n : Nat} (hn : n ≤ 2) :
    literalLines (List.replicate n '\'' ++ '\'' :: '\'' :: '\'' :: rest) =
      some (List.replicate n '\'', rest) := by
  have hrest (tail : List Char) : rest ≠ '\'' :: tail := by
    rintro rfl
    exact hrest rfl
  match n, hn with
  | 0, _ | 1, _ | 2, _ => simp [List.replicate, literalLines, hrest]

/-! ### Texts of many lines -/

/-- What is written for a character begins neither with a quote nor with the end of a line. -/
theorem Escaped.exists_cons {c : Char} {written : List Char} (h : Escaped c written) :
    ∃ d tail, written = d :: tail ∧ d ≠ '"' ∧ d ≠ '\n' ∧ d ≠ '\r' := by
  cases h with
  | itself hplain hquote _ => exact ⟨c, [], rfl, hquote, ne_break_of_isPlain hplain⟩
  | letter he => exact ⟨_, _, rfl, by decide⟩
  | number hc => exact ⟨_, _, rfl, by decide⟩

/-- What is written for another character than a quote, or behind two quotes, does not begin with
a quote. -/
theorem exists_escapeLines_cons {run : Nat} {c : Char} (h : c ≠ '"' ∨ 2 ≤ run) (s : List Char) :
    ∃ d written, escapeLines run (c :: s) = d :: written ∧ d ≠ '"' := by
  by_cases hbreak : c = '\n'
  · subst hbreak
    exact ⟨_, _, rfl, by decide⟩
  by_cases hquote : c = '"'
  · subst hquote
    rw [escapeLines, if_neg (Nat.not_lt.2 (h.resolve_left (absurd rfl)))]
    exact ⟨_, _, rfl, by decide⟩
  obtain ⟨d, tail, htail, hd, -⟩ := (escaped_escape c).exists_cons
  rw [escapeLines, htail]
  · exact ⟨d, _, rfl, hd⟩
  · exact hbreak
  · exact hquote

theorem basicLines_escapeLines (hrest : rest.head? ≠ some '"') (run : Nat) (s : List Char) :
    basicLines .none (escapeLines run s ++ '"' :: '"' :: '"' :: rest) = some (s, rest) := by
  induction run, s using escapeLines.induct with
  | case1 run => exact basicLines_close hrest (Nat.zero_le 2)
  | case2 run s ih =>
    rw [escapeLines, List.cons_append, basicLines, ih]
    · rfl
    · nofun
    · nofun
  | case3 run s hrun ih =>
    rw [escapeLines, if_pos hrun, List.cons_append]
    -- At the end of the text, one or two quotes form a row with the three that close it.
    have hstep (h : ¬ ['"', '"'] <+: escapeLines (run + 1) s ++ '"' :: '"' :: '"' :: rest) :
        basicLines .none ('"' :: (escapeLines (run + 1) s ++ '"' :: '"' :: '"' :: rest)) =
          some ('"' :: s, rest) := by
      rw [basicLines_quote h, ih]
      rfl
    cases s with
    | nil => exact basicLines_close hrest (n := 1) (by decide)
    | cons c s =>
      by_cases hc : c ≠ '"' ∨ 2 ≤ run + 1
      · obtain ⟨d, tail, htail, hd⟩ := exists_escapeLines_cons hc s
        refine hstep ?_
        simp [htail, hd.symm]
      · obtain ⟨rfl, hzero⟩ : c = '"' ∧ run = 0 := by
          simp at hc
          omega
        subst hzero
        cases s with
        | nil => exact basicLines_close hrest (n := 2) (by decide)
        | cons c s =>
          obtain ⟨d, tail, htail, hd⟩ := exists_escapeLines_cons (c := c) (.inr (Nat.le_refl 2)) s
          refine hstep ?_
          simp [escapeLines, htail, hd.symm]
  | case4 run s hrun ih =>
    have hescape : '\\' :: '"' :: escapeLines 0 s = escape '"' ++ escapeLines 0 s := rfl
    rw [escapeLines, if_neg hrun, hescape, List.append_assoc,
      basicLines_append (escaped_escape '"'), ih]
    rfl
  | case5 run c s hbreak hquote ih =>
    rw [escapeLines, List.append_assoc, basicLines_append (escaped_escape c), ih]
    · rfl
    · exact hbreak
    · exact hquote

theorem le_longestRun (q : Char) (run : Nat) (s : List Char) : run ≤ longestRun q run s := by
  induction s generalizing run with
  | nil => exact Nat.le_refl run
  | cons c s ih =>
    rw [longestRun]
    split
    · exact Nat.le_of_succ_le (ih (run + 1))
    · exact Nat.le_max_left _ _

theorem longestRun_le_longestRun (q : Char) {m n : Nat} (h : m ≤ n) (s : List Char) :
    longestRun q m s ≤ longestRun q n s := by
  induction s generalizing m n with
  | nil => exact h
  | cons c s ih =>
    rw [longestRun, longestRun]
    split
    · exact ih (Nat.succ_le_succ h)
    · omega

theorem literalLines_append (hrest : rest.head? ≠ some '\'') {s : List Char}
    (hs : ∀ c ∈ s, needsEscape c = false) (hrun : longestRun '\'' 0 s ≤ 2) :
    literalLines (s ++ '\'' :: '\'' :: '\'' :: rest) = some (s, rest) := by
  induction s with
  | nil => exact literalLines_close hrest (Nat.zero_le 2)
  | cons c s ih =>
    simp only [List.mem_cons, forall_eq_or_imp] at hs
    obtain ⟨hc, hs⟩ := hs
    by_cases hquote : c = '\''
    · subst hquote
      rw [longestRun, if_pos rfl] at hrun
      have hzero := longestRun_le_longestRun '\'' (Nat.zero_le (0 + 1)) s
      have hstep (h : ¬ ['\'', '\''] <+: s ++ '\'' :: '\'' :: '\'' :: rest) :
          literalLines ('\'' :: (s ++ '\'' :: '\'' :: '\'' :: rest)) = some ('\'' :: s, rest) := by
        rw [literalLines_apostrophe h, ih hs (Nat.le_trans hzero hrun)]
        rfl
      match s with
      | [] => exact literalLines_close hrest (n := 1) (by decide)
      | [d] =>
        by_cases hd : d = '\''
        · subst hd
          exact literalLines_close hrest (n := 2) (by decide)
        · exact hstep (by simp [Ne.symm hd])
      | d :: e :: s =>
        refine hstep fun hprefix => ?_
        obtain ⟨rfl, rfl⟩ : '\'' = d ∧ '\'' = e := by simpa using hprefix
        have hthree := Nat.le_trans (le_longestRun '\'' (0 + 1 + 1 + 1) s) hrun
        exact absurd hthree (by decide)
    · rw [longestRun, if_neg hquote] at hrun
      have hread : literalLines (c :: (s ++ '\'' :: '\'' :: '\'' :: rest)) =
          prepend c (literalLines (s ++ '\'' :: '\'' :: '\'' :: rest)) := by
        by_cases hbreak : c = '\n'
        · subst hbreak
          rw [literalLines]
        · have hplain := isPlain_of_not_needsEscape hc hbreak
          have hreturn := (ne_break_of_isPlain hplain).2
          rw [literalLines]
          all_goals simp [hplain, hquote, hbreak, hreturn]
      rw [List.cons_append, hread, ih hs (by omega)]
      rfl

/-! ### Styles -/

/-- A style without escapes suits the texts whose characters may stand for themselves in it. -/
def Style.Suits (s : List Char) : Style → Prop
  | .basic => True
  | .literal => ∀ c ∈ s, isPlain c = true ∧ c ≠ '\''
  | .basicLines => True
  | .literalLines => (∀ c ∈ s, needsEscape c = false) ∧ longestRun '\'' 0 s ≤ 2

theorem not_mem_of_longestRun_eq_zero {q : Char} {s : List Char} (h : longestRun q 0 s = 0) :
    q ∉ s := by
  induction s with
  | nil => exact List.not_mem_nil
  | cons c s ih =>
    rw [longestRun] at h
    split at h
    · have hone := le_longestRun q (0 + 1) s
      omega
    · rename_i hc
      exact List.not_mem_cons_of_ne_of_not_mem (Ne.symm hc) (ih (by omega))

/-- The style that is chosen for a text suits it. -/
theorem Style.suits_for (s : List Char) : (Style.for s).Suits s := by
  have hescape (h : s.any needsEscape = false) : ∀ c ∈ s, needsEscape c = false := by
    simpa using h
  unfold Style.for
  extract_lets control backslash lines quotes apostrophes
  split
  · trivial
  split
  · rename_i h
    simp only [Bool.and_eq_true, Bool.not_eq_true', decide_eq_true_eq] at h
    obtain ⟨⟨hcontrol, hrun⟩, hlines⟩ := h
    have hlines : '\n' ∉ s := by simpa [lines] using hlines
    intro c hc
    refine ⟨?_, ?_⟩
    · exact isPlain_of_not_needsEscape (hescape hcontrol c hc) fun h => hlines (h ▸ hc)
    · rintro rfl
      exact not_mem_of_longestRun_eq_zero hrun hc
  split
  · trivial
  split
  · rename_i h
    simp only [Bool.and_eq_true, Bool.not_eq_true', decide_eq_true_eq] at h
    exact ⟨hescape h.1, h.2⟩
  split
  · trivial
  · trivial

/-- A line break behind the opening is no part of the text, and is put there where the text could
begin with one. -/
theorem dropBreak_opening {s written : List Char}
    (h : '\n' ∉ s → written.head? ≠ some '\n' ∧ written.head? ≠ some '\r') :
    dropBreak (opening s ++ written) = written := by
  by_cases hs : '\n' ∈ s
  · simp [opening, hs, dropBreak]
  · obtain ⟨hbreak, hreturn⟩ := h hs
    rw [opening, if_neg (by simpa using hs), List.nil_append]
    unfold dropBreak
    split
    · simp at hbreak
    · simp at hreturn
    · rfl

/-- What is written for a text without a line break does not begin with one. -/
theorem head?_escapeLines {s : List Char} (hs : '\n' ∉ s) (rest : List Char) :
    (escapeLines 0 s ++ '"' :: rest).head? ≠ some '\n' ∧
      (escapeLines 0 s ++ '"' :: rest).head? ≠ some '\r' := by
  cases s with
  | nil => simp [escapeLines]
  | cons c s =>
    have hbreak : c ≠ '\n' := fun h => hs (h ▸ List.mem_cons_self)
    by_cases hquote : c = '"'
    · simp [escapeLines, hquote]
    · obtain ⟨d, tail, htail, -, hd⟩ := (escaped_escape c).exists_cons
      rw [escapeLines, htail]
      · simpa using hd
      · exact hbreak
      · exact hquote

/-- A text on one line does not open like one of many lines. -/
theorem not_isPrefix_row {q : Char} {s : List Char} (hrest : rest.head? ≠ some q)
    (hs : s.head? ≠ some q) : ¬ [q, q] <+: s ++ q :: rest := by
  cases s with
  | nil =>
    rintro ⟨tail, htail⟩
    obtain rfl : q :: tail = rest := by simpa using htail
    exact hrest rfl
  | cons c s =>
    have hc : c ≠ q := by simpa using hs
    simp [hc.symm]

/-- **A text is read back in every style that suits it.** -/
theorem read?_writeIn {style : Style} {s : List Char} (h : style.Suits s)
    (hquote : rest.head? ≠ some '"') (hapostrophe : rest.head? ≠ some '\'') :
    read? (writeIn s style ++ rest) = some (s, rest) := by
  cases style with
  | basic =>
    have hfirst : (s.flatMap escape).head? ≠ some '"' := by
      cases s with
      | nil => simp
      | cons c s =>
        obtain ⟨d, tail, htail, hd, -⟩ := (escaped_escape c).exists_cons
        simpa [htail] using hd
    simp only [writeIn, List.cons_append, List.append_assoc, List.nil_append]
    rw [read?, basic_flatMap_escape]
    exact fun tail htail => not_isPrefix_row hquote hfirst ⟨tail, htail.symm⟩
  | literal =>
    have hfirst : s.head? ≠ some '\'' := fun hhead =>
      (h '\'' (List.mem_of_head? hhead)).2 rfl
    simp only [writeIn, List.cons_append, List.append_assoc, List.nil_append]
    rw [read?, literal_append h]
    exact fun tail htail => not_isPrefix_row hapostrophe hfirst ⟨tail, htail.symm⟩
  | basicLines =>
    simp only [writeIn, List.cons_append, List.append_assoc, List.nil_append]
    rw [read?, dropBreak_opening, basicLines_escapeLines hquote]
    exact fun hlines => head?_escapeLines hlines _
  | literalLines =>
    obtain ⟨hs, hrun⟩ := h
    simp only [writeIn, List.cons_append, List.append_assoc, List.nil_append]
    rw [read?, dropBreak_opening, literalLines_append hapostrophe hs hrun]
    intro hlines
    cases s with
    | nil => simp
    | cons c s =>
      have hbreak : c ≠ '\n' := fun h => hlines (h ▸ List.mem_cons_self)
      have hplain := isPlain_of_not_needsEscape (hs c List.mem_cons_self) hbreak
      simpa using ne_break_of_isPlain hplain

/-- **A written text is read back.** -/
theorem read?_write (s : List Char) (hquote : rest.head? ≠ some '"')
    (hapostrophe : rest.head? ≠ some '\'') : read? (write s ++ rest) = some (s, rest) :=
  read?_writeIn (Style.suits_for s) hquote hapostrophe

end DelegatedVoting.Toml.Text
