import DelegatedVoting.Config.Written
import DelegatedVoting.Proofs.TomlTexts

/-!
# TOML lines are read back

A document that is a list of lines, each with a bare key and a value, is read as the table of these
values.

* `Scalar.integer?_toDigits`: the digits of a number are read as the number;
* `Value.Writes`: what is written for a value is read as the value;
* `Key.IsBare`, `Line.read?_writeLine`: the line of a value under a key;
* `Assignment`, `Document.linesFrom_lines`: the lines of a document;
* `Document.read?_lines`: the table of a document whose keys differ.
-/

namespace DelegatedVoting

namespace Toml

open DelegatedVoting.Text (Decimal.isDigit Decimal.digit?_of_isDigit Decimal.isDigit_toDigits
  Decimal.ofDigits_toDigits Decimal.head?_toDigits)

/-! ### Where words and blanks end -/

section

variable {α : Type} {p : α → Bool} {s : List α} {d : α}

theorem takeWhile_append_cons (hs : ∀ c ∈ s, p c = true) (hd : p d = false) (rest : List α) :
    (s ++ d :: rest).takeWhile p = s := by
  rw [List.takeWhile_append_of_pos hs, List.takeWhile_cons_of_neg (by simp [hd]), List.append_nil]

theorem dropWhile_append_cons (hs : ∀ c ∈ s, p c = true) (hd : p d = false) (rest : List α) :
    (s ++ d :: rest).dropWhile p = d :: rest := by
  rw [List.dropWhile_append_of_pos hs, List.dropWhile_cons_of_neg (by simp [hd])]

end

theorem skipBlanks_cons {c : Char} (h : Text.isBlank c = false) (s : List Char) :
    skipBlanks (c :: s) = c :: s := List.dropWhile_cons_of_neg (by simp [h])

/-- Of a class without blanks, no character is a blank. -/
theorem not_isBlank_of_class {p : Char → Bool} {c : Char} (hc : p c = true)
    (hspace : p ' ' = false) (htab : p '\t' = false) : Text.isBlank c = false := by
  simp [Text.isBlank, Text.ne_of_class hc hspace, Text.ne_of_class hc htab]

/-! ### Scalars -/

namespace Scalar

theorem ungroup?_of_isDigit {isDigit : Char → Bool} {s : List Char} (hs : ∀ c ∈ s, isDigit c = true)
    (hbar : isDigit '_' = false) (hne : s ≠ []) : ungroup? isDigit s = some s := by
  induction s with
  | nil => exact absurd rfl hne
  | cons c s ih =>
    simp only [List.mem_cons, forall_eq_or_imp] at hs
    obtain ⟨hc, hs⟩ := hs
    cases s with
    | nil => rw [ungroup?, if_pos hc]
    | cons d s =>
      have hd : d ≠ '_' := by
        rintro rfl
        simp [hbar] at hs
      rw [ungroup?, if_pos hc, ih hs (by simp)]
      · rfl
      · simp
      · simp [hd]

/-- The digits of a number that fits are read as the number. -/
theorem integer?_toDigits {n : Nat} (h : (n : Int) ≤ Int64.maxValue.toInt) :
    integer? (Nat.toDigits 10 n) = some (n : Int) := by
  have hdigits := Decimal.isDigit_toDigits n
  have hungroup : ungroup? Decimal.isDigit (Nat.toDigits 10 n) = some (Nat.toDigits 10 n) := by
    refine ungroup?_of_isDigit (fun c hc => ?_) (by decide) Nat.toDigits_ne_nil
    rw [Decimal.isDigit, Decimal.digit?_of_isDigit (hdigits c hc)]
    rfl
  have hmin : Int64.minValue.toInt ≤ (n : Int) := by
    have hmin : Int64.minValue.toInt ≤ 0 := by decide
    omega
  have hunbounded : unbounded? (Nat.toDigits 10 n) = some (n : Int) := by
    rcases Nat.eq_zero_or_pos n with rfl | hn
    · decide
    · have hhead := Decimal.head?_toDigits hn
      have hvalue := Decimal.ofDigits_toDigits n
      cases hds : Nat.toDigits 10 n with
      | nil => exact absurd hds Nat.toDigits_ne_nil
      | cons c ds =>
        rw [hds] at hhead hdigits hungroup hvalue
        have hc := hdigits c List.mem_cons_self
        have hzero : c ≠ '0' := fun h => hhead (h ▸ rfl)
        have hminus : c ≠ '-' := Text.ne_of_class hc (by decide)
        have hplus : c ≠ '+' := Text.ne_of_class hc (by decide)
        have hsign : sign (c :: ds) = (false, c :: ds) := by simp [sign, hminus, hplus]
        have hdecimal : decimalDigits? (c :: ds) = some (c :: ds) := by
          simp [decimalDigits?, hzero, hungroup]
        simp [unbounded?, hzero, hsign, hdecimal, hvalue]
  rw [integer?, hunbounded]
  exact if_pos ⟨hmin, h⟩

/-- A word is read up to the end of the line. -/
theorem read?_append {word : List Char} {v : Item} (hword : ∀ c ∈ word, isWordChar c = true)
    (hv : ofWord? word = some v) (rest : List Char) :
    read? (word ++ '\n' :: rest) = some (v, '\n' :: rest) := by
  have htake := takeWhile_append_cons hword (show isWordChar '\n' = false by decide) rest
  have hdrop := dropWhile_append_cons hword (show isWordChar '\n' = false by decide) rest
  rw [read?, htake, hdrop]
  simp [hv]

end Scalar

/-! ### Values -/

theorem Text.exists_write_cons (s : List Char) :
    ∃ q tail, Text.write s = q :: tail ∧ (q = '"' ∨ q = '\'') := by
  rw [Text.write]
  cases Text.Style.for s with
  | basic => exact ⟨_, _, rfl, .inl rfl⟩
  | literal => exact ⟨_, _, rfl, .inr rfl⟩
  | basicLines => exact ⟨_, _, rfl, .inl rfl⟩
  | literalLines => exact ⟨_, _, rfl, .inr rfl⟩

namespace Value

/-- What is written for a value is read as the value, up to the end of the line. -/
def Writes (written : List Char) (v : Item) : Prop :=
  ∀ rest, read? (skipBlanks (written ++ '\n' :: rest)) = some (v, '\n' :: rest)

theorem writes_text (s : String) : Writes (Text.write s.toList) (.text s) := by
  intro rest
  have htext : Text.read? (Text.write s.toList ++ '\n' :: rest) = some (s.toList, '\n' :: rest) :=
    Text.read?_write s.toList (by simp) (by simp)
  obtain ⟨q, tail, hwrite, hq⟩ := Text.exists_write_cons s.toList
  rw [hwrite, List.cons_append] at htext ⊢
  rcases hq with rfl | rfl
  · rw [skipBlanks_cons (by decide), read?, maxDepth, readTo, htext]
    simp
  · rw [skipBlanks_cons (by decide), read?, maxDepth, readTo, htext]
    simp

theorem writes_word {word : List Char} {v : Item} (hword : ∀ c ∈ word, Scalar.isWordChar c = true)
    (hv : Scalar.ofWord? word = some v) : Writes word v := by
  intro rest
  have hread := Scalar.read?_append hword hv rest
  cases word with
  | nil =>
    have hnone : Scalar.ofWord? [] = none := rfl
    rw [hnone] at hv
    cases hv
  | cons c word =>
    have hc := hword c List.mem_cons_self
    have hblank := not_isBlank_of_class hc (by decide) (by decide)
    rw [List.cons_append, skipBlanks_cons hblank, read?, maxDepth, readTo]
    · exact hread
    all_goals exact fun _ h => Text.ne_of_class hc (by decide) (List.cons.inj h).1

theorem writes_flag (b : Bool) : Writes (Config.writeFlag b) (.flag b) := by
  cases b with
  | false => exact writes_word (List.all_eq_true.1 (by decide)) rfl
  | true => exact writes_word (List.all_eq_true.1 (by decide)) rfl

theorem writes_toDigits {n : Nat} (h : (n : Int) ≤ Int64.maxValue.toInt) :
    Writes (Nat.toDigits 10 n) (.integer n) := by
  refine writes_word (fun c hc => ?_) ?_
  · simp [Scalar.isWordChar, Char.isAlphanum, Decimal.isDigit_toDigits n c hc]
  · have hflag : Scalar.flag? (Nat.toDigits 10 n) = none := by
      have hdigits := Decimal.isDigit_toDigits n
      rw [Scalar.flag?, if_neg, if_neg]
      · intro hfalse
        rw [hfalse] at hdigits
        exact absurd (hdigits 'f' (by decide)) (by decide)
      · intro htrue
        rw [htrue] at hdigits
        exact absurd (hdigits 't' (by decide)) (by decide)
    rw [Scalar.ofWord?, hflag, Scalar.integer?_toDigits h]

end Value

/-! ### Lines -/

/-- The keys that need no quotes. -/
def Key.IsBare (key : String) : Prop := key ≠ "" ∧ key.toList.all Key.isBareChar = true

instance (key : String) : Decidable (Key.IsBare key) := inferInstanceAs (Decidable (_ ∧ _))

theorem Key.IsBare.exists_cons {key : String} (h : Key.IsBare key) :
    ∃ c name, key.toList = c :: name ∧ ∀ d ∈ c :: name, isBareChar d = true := by
  obtain ⟨hne, hall⟩ := h
  rw [List.all_eq_true] at hall
  cases hkey : key.toList with
  | nil => exact absurd (String.toList_inj.1 hkey) hne
  | cons c name => exact ⟨c, name, rfl, hkey ▸ hall⟩

/-- A bare key is read up to the blank behind it. -/
theorem Key.read?_append {c : Char} {name : List Char} (hkey : ∀ d ∈ c :: name, isBareChar d = true)
    (rest : List Char) : Key.read? (c :: name ++ ' ' :: '=' :: rest) =
      some (⟨[], String.ofList (c :: name)⟩, '=' :: rest) := by
  have hc := hkey c List.mem_cons_self
  have htake := takeWhile_append_cons hkey (show isBareChar ' ' = false by decide) ('=' :: rest)
  have hdrop := dropWhile_append_cons hkey (show isBareChar ' ' = false by decide) ('=' :: rest)
  have hpart : part? (c :: name ++ ' ' :: '=' :: rest) =
      some (String.ofList (c :: name), ' ' :: '=' :: rest) := by
    rw [part?, htake, hdrop]
    · rfl
    · exact fun _ h => Text.ne_of_class hc (by decide) (List.cons.inj h).1
    · exact fun _ h => Text.ne_of_class hc (by decide) (List.cons.inj h).1
  have hskip : skipBlanks (c :: name ++ ' ' :: '=' :: rest) = c :: name ++ ' ' :: '=' :: rest :=
    skipBlanks_cons (not_isBlank_of_class hc (by decide) (by decide)) _
  rw [read?, maxParts, parts?, hskip, hpart]
  simp [skipBlanks, Text.isBlank]

/-- The line of a setting is read as the setting. -/
theorem Line.read?_writeLine {key : String} {written : List Char} {v : Item}
    (hkey : Key.IsBare key) (hv : Value.Writes written v) (rest : List Char) :
    Line.read? (Config.writeLine key written ++ rest) = some (.assignment ⟨[], key⟩ v, rest) := by
  obtain ⟨c, name, hname, hbare⟩ := hkey.exists_cons
  have hc := hbare c List.mem_cons_self
  have hline : Config.writeLine key written ++ rest =
      c :: name ++ ' ' :: '=' :: ' ' :: (written ++ '\n' :: rest) := by
    simp [Config.writeLine, hname]
  have hread := Key.read?_append hbare (' ' :: (written ++ '\n' :: rest))
  have hblank : skipBlanks (' ' :: (written ++ '\n' :: rest)) =
      skipBlanks (written ++ '\n' :: rest) := List.dropWhile_cons_of_pos (by decide)
  have hend : endLine? ('\n' :: rest) = some rest := by simp [endLine?, skipBlanks, Text.isBlank]
  rw [hline, read?, hread, ← hname, String.ofList_toList]
  · simp [hblank, hv rest, hend]
  · exact fun _ h => Text.ne_of_class hc (by decide) (List.cons.inj h).1
  · exact fun _ h => Text.ne_of_class hc (by decide) (List.cons.inj h).1

/-! ### Documents -/

/-- A value under a key together with what is written for it. -/
structure Assignment where
  key : String
  written : List Char
  value : Item
  isBare : Key.IsBare key
  writes : Value.Writes written value

namespace Assignment

/-- The line of a value under a key. -/
def line (a : Assignment) : List Char := Config.writeLine a.key a.written

def entry (a : Assignment) : String × Item := (a.key, a.value)

/-- A line begins with a character of its key. -/
theorem exists_line_cons (a : Assignment) :
    ∃ c rest, a.line = c :: rest ∧ Key.isBareChar c = true := by
  obtain ⟨c, name, hkey, hbare⟩ := a.isBare.exists_cons
  have hline : a.line = c :: (name ++ [' ', '=', ' '] ++ a.written ++ ['\n']) := by
    simp [line, Config.writeLine, hkey]
  exact ⟨c, _, hline, hbare c List.mem_cons_self⟩

theorem length_le_length_lines (as : List Assignment) : as.length ≤ (as.flatMap line).length := by
  induction as with
  | nil => exact Nat.le_refl 0
  | cons a as ih =>
    obtain ⟨c, rest, hline, -⟩ := a.exists_line_cons
    rw [List.flatMap_cons, hline, List.length_append, List.length_cons, List.length_cons]
    omega

end Assignment

namespace Document

/-- Lines are read one by one. -/
theorem linesFrom_lines (as : List Assignment) {fuel : Nat} (hfuel : as.length < fuel) :
    linesFrom fuel (as.flatMap Assignment.line) =
      some (as.map fun a => .assignment ⟨[], a.key⟩ a.value) := by
  induction as generalizing fuel with
  | nil =>
    cases fuel with
    | zero => cases hfuel
    | succ fuel => rfl
  | cons a as ih =>
    cases fuel with
    | zero => cases hfuel
    | succ fuel =>
      obtain ⟨c, rest, hline, hc⟩ := a.exists_line_cons
      have hread := Line.read?_writeLine a.isBare a.writes (as.flatMap Assignment.line)
      rw [← Assignment.line] at hread
      have hskip : skipBlanks (a.line ++ as.flatMap Assignment.line) =
          a.line ++ as.flatMap Assignment.line := by
        rw [hline]
        exact skipBlanks_cons (not_isBlank_of_class hc (by decide) (by decide)) _
      have hhead {d : Char} {tail : List Char} (hd : Key.isBareChar d = false)
          (h : a.line ++ as.flatMap Assignment.line = d :: tail) : False := by
        rw [hline] at h
        exact Text.ne_of_class hc hd (List.cons.inj h).1
      rw [List.flatMap_cons, linesFrom, hskip]
      -- A line that begins with a key is neither blank nor a comment.
      split
      · rename_i h
        simp [hline] at h
      · rename_i h
        exact (hhead (by decide) h).elim
      · rename_i h
        exact (hhead (by decide) h).elim
      · rename_i h
        exact (hhead (by decide) h).elim
      · rw [hread]
        simp [ih (Nat.lt_of_succ_lt_succ hfuel)]

/-- The lines of values are filled into a table in their order. -/
theorem tablesFrom_assignments (entries : List (String × Item)) (values : List (KeyPath × Item)) :
    tablesFrom (entries.map fun e => .assignment ⟨[], e.1⟩ e.2) values =
      fill ((entries.map fun e => (⟨[], e.1⟩, e.2)).reverse ++ values) (.empty .header) := by
  induction entries generalizing values with
  | nil => rfl
  | cons e entries ih =>
    rw [List.map_cons, tablesFrom, ih]
    simp

theorem table?_assignments (entries : List (String × Item)) :
    table? (entries.map fun e => .assignment ⟨[], e.1⟩ e.2) =
      fill (entries.map fun e => (⟨[], e.1⟩, e.2)) (.empty .header) := by
  rw [table?, ← List.map_reverse, tablesFrom_assignments, List.append_nil, ← List.map_reverse,
    List.reverse_reverse]

theorem putEntry_of_not_mem {key : String} {entries : List (String × Item)}
    (h : key ∉ entries.map Prod.fst) (v : Item) :
    Table.putEntry key v entries = entries ++ [(key, v)] := by
  induction entries with
  | nil => rfl
  | cons e entries ih =>
    rw [List.map_cons, List.mem_cons, not_or] at h
    rw [Table.putEntry, if_neg (Ne.symm h.1), ih h.2]
    rfl

/-- Values under different keys are the entries of a table. -/
theorem fill_entries {entries front : List (String × Item)}
    (h : ((front ++ entries).map Prod.fst).Nodup) :
    fill (entries.map fun e => (⟨[], e.1⟩, e.2)) (.mk .header front) =
      some (.mk .header (front ++ entries)) := by
  induction entries generalizing front with
  | nil =>
    rw [List.append_nil]
    rfl
  | cons e entries ih =>
    have hfresh : e.1 ∉ front.map Prod.fst := by
      rw [List.map_append, List.map_cons, List.nodup_append] at h
      exact fun hmem => h.2.2 _ hmem _ List.mem_cons_self rfl
    have hassign : Table.assign ⟨[], e.1⟩ e.2 (.mk .header front) =
        some (.mk .header (front ++ [e])) := by
      have hget : front.lookup e.1 = none := by
        rw [List.lookup_eq_none_iff]
        exact fun p hp => bne_iff_ne.2 fun h => hfresh (h ▸ List.mem_map_of_mem hp)
      simp [Table.assign, Table.reach, Table.add, Table.get?, Table.entries, Table.put,
        Table.origin, hget, putEntry_of_not_mem hfresh]
    rw [List.append_cons] at h ⊢
    rw [← ih h, fill, List.map_cons, List.foldlM_cons, hassign]
    rfl

/-- The table of lines with different keys. -/
theorem read?_lines {as : List Assignment} (h : (as.map Assignment.key).Nodup) :
    read? (String.ofList (as.flatMap Assignment.line)) =
      some (.mk .header (as.map Assignment.entry)) := by
  have hmark : dropMark (as.flatMap Assignment.line) = as.flatMap Assignment.line := by
    cases as with
    | nil => rfl
    | cons a as =>
      obtain ⟨c, rest, hline, hc⟩ := a.exists_line_cons
      rw [List.flatMap_cons, hline, List.cons_append, dropMark]
      exact fun _ h => Text.ne_of_class hc (by decide) (List.cons.inj h).1
  have hlines := linesFrom_lines as (Nat.lt_succ_of_le (Assignment.length_le_length_lines as))
  have hfill : fill ((as.map Assignment.entry).map fun e => (⟨[], e.1⟩, e.2)) (.empty .header) =
      some (.mk .header (as.map Assignment.entry)) := by
    have hkeys : (([] ++ as.map Assignment.entry).map Prod.fst).Nodup := by
      rw [List.nil_append, List.map_map]
      exact h
    exact fill_entries hkeys
  have htable := table?_assignments (as.map Assignment.entry)
  rw [hfill, List.map_map] at htable
  rw [read?, String.toList_ofList, hmark, lines?, hlines]
  exact htable

end Document

end Toml
end DelegatedVoting
