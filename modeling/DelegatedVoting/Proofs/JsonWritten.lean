import DelegatedVoting.Proofs.JsonDocuments
import DelegatedVoting.Proofs.Members

/-!
# Documents are written

What is written for a document spells a document that says the same. It is the document itself,
except that a control character of a text may come back as the number of a unit.

* `reread`: the document that is read where another one was written;
* `Token.write`, `write_eq_flatMap`: a document is written token by token;
* `IsSound`: a document whose parts can all be written so that they are read back;
* `IsSound.spells_write`: what is written spells the document that is read back;
* `textOf?_reread`: texts are the same when they are read back.
-/

namespace DelegatedVoting.Json

open DelegatedVoting.Text

/-! ### What is read back -/

/-- Whether a character of a quoted text is written as the number of a unit. -/
def isNumbered (c : Char) : Bool :=
  c.toNat < 32 && !(['\x08', '\x0c', '\n', '\r', '\t'].contains c)

/-- The part of a quoted text that is read where this one was written. -/
def Piece.reread : Piece → Piece
  | .plain (some c) => if isNumbered c then .unit c.toNat else .plain (some c)
  | p => p

/-- The token that is read where this one was written. -/
def Token.reread : Token → Token
  | .text pieces => .text (pieces.map Piece.reread)
  | t => t

mutual

/-- The document that is read where this one was written. It says the same. -/
def reread : Json → Json
  | .text pieces => .text (pieces.map Piece.reread)
  | .array items closed => .array (rereadItems items) closed
  | .object members closed => .object (rereadMembers members) closed
  | v => v

/-- The items that are read where these were written. -/
def rereadItems : List Json → List Json
  | [] => []
  | v :: items => reread v :: rereadItems items

/-- The members that are read where these were written. -/
def rereadMembers : List (List Piece × Json) → List (List Piece × Json)
  | [] => []
  | (key, v) :: members => (key.map Piece.reread, reread v) :: rereadMembers members

end

/-- The text of a token. -/
def Token.write : Token → List Char
  | .openBrace => ['{']
  | .closeBrace => ['}']
  | .openBracket => ['[']
  | .closeBracket => [']']
  | .comma => [',']
  | .colon => [':']
  | .null => Json.null.write
  | .flag b => (Json.flag b).write
  | .number n => n.write
  | .text pieces => writeText pieces
  | .malformed => []

mutual

/-- A document is written token by token. -/
theorem write_eq_flatMap : ∀ v : Json, v.write = v.lexemes.flatMap Token.write
  | .null | .hole => rfl
  | .flag b => (List.append_nil _).symm
  | .number n => (List.append_nil _).symm
  | .text pieces => (List.append_nil _).symm
  | .array items closed => by
    cases closed <;> simp [write, lexemes, Token.write, writeItems_eq_flatMap items]
  | .object members closed => by
    cases closed <;> simp [write, lexemes, Token.write, writeMembers_eq_flatMap members]

theorem writeItems_eq_flatMap : ∀ items : List Json,
    writeItems items = (itemLexemes items).flatMap Token.write
  | [] => rfl
  | [v] => write_eq_flatMap v
  | v :: w :: items => by
    simp [writeItems, itemLexemes, Token.write, write_eq_flatMap v,
      writeItems_eq_flatMap (w :: items)]

theorem writeMembers_eq_flatMap : ∀ members : List (List Piece × Json),
    writeMembers members = (memberLexemes members).flatMap Token.write
  | [] => rfl
  | [(key, v)] => by
    simp [writeMembers, memberLexemes, Token.write, write_eq_flatMap v]
  | (key, v) :: m :: members => by
    simp [writeMembers, memberLexemes, Token.write, write_eq_flatMap v,
      writeMembers_eq_flatMap (m :: members)]

end

mutual

theorem lexemes_reread : ∀ v : Json, v.reread.lexemes = v.lexemes.map Token.reread
  | .null | .hole | .flag _ | .number _ | .text _ => rfl
  | .array items closed => by
    cases closed <;> simp [reread, lexemes, Token.reread, itemLexemes_reread items]
  | .object members closed => by
    cases closed <;> simp [reread, lexemes, Token.reread, memberLexemes_reread members]

theorem itemLexemes_reread : ∀ items : List Json,
    itemLexemes (rereadItems items) = (itemLexemes items).map Token.reread
  | [] => rfl
  | [v] => lexemes_reread v
  | v :: w :: items => by
    have := itemLexemes_reread (w :: items)
    simp_all [rereadItems, itemLexemes, Token.reread, lexemes_reread v]

theorem memberLexemes_reread : ∀ members : List (List Piece × Json),
    memberLexemes (rereadMembers members) = (memberLexemes members).map Token.reread
  | [] => rfl
  | [(key, v)] => by
    simp [rereadMembers, memberLexemes, Token.reread, lexemes_reread v]
  | (key, v) :: m :: members => by
    have := memberLexemes_reread (m :: members)
    simp_all [rereadMembers, memberLexemes, Token.reread, lexemes_reread v]

end

/-- The digits of a unit spell it. -/
theorem spells_writeUnit {n : Nat} (h : n < 65536) : (Piece.unit n).Spells (writeUnit n) := by
  have hspells := Piece.Spells.unit (Hex.value?_digit (Nat.mod_lt (n / 4096) (by decide : 16 > 0)))
    (Hex.value?_digit (Nat.mod_lt (n / 256) (by decide : 16 > 0)))
    (Hex.value?_digit (Nat.mod_lt (n / 16) (by decide : 16 > 0)))
    (Hex.value?_digit (Nat.mod_lt n (by decide : 16 > 0)))
  have hn : n / 4096 % 16 * 4096 + n / 256 % 16 * 256 + n / 16 % 16 * 16 + n % 16 = n := by omega
  rw [hn] at hspells
  exact hspells

/-- What is written for a character spells the part that is read back. -/
theorem spells_writeChar (c : Char) :
    (Piece.plain (some c)).reread.Spells (writeChar c) := by
  unfold writeChar
  split
  case h_8 hquote hslash h8 hc hn hr ht =>
    have hletters : ['\x08', '\x0c', '\n', '\r', '\t'].contains c = false := by simp_all
    rw [Piece.reread, isNumbered, hletters, Bool.not_false, Bool.and_true]
    by_cases hcontrol : c.toNat < 32
    · rw [if_pos hcontrol, decide_eq_true hcontrol, if_pos rfl]
      exact spells_writeUnit (by omega)
    · rw [if_neg hcontrol, decide_eq_false hcontrol, if_neg Bool.false_ne_true]
      exact .plain hquote hslash (Nat.not_lt.1 hcontrol)
  all_goals exact .escape rfl

/-- The part of a quoted text has a character or a number of sixteen bits. -/
def Piece.IsSound : Piece → Prop
  | .plain g => g.isSome = true
  | .unit n => n < 65536

theorem Piece.IsSound.spells_write {p : Piece} (h : p.IsSound) :
    p.reread.Spells (writePiece p) := by
  match p, h with
  | .plain (some c), _ => exact spells_writeChar c
  | .unit n, h => exact spells_writeUnit h

theorem spellsAll_write {pieces : List Piece} (h : ∀ p ∈ pieces, p.IsSound) :
    SpellsAll (pieces.map Piece.reread) (pieces.flatMap writePiece) := by
  induction pieces with
  | nil => exact .nil
  | cons p pieces ih =>
    obtain ⟨hp, hpieces⟩ := List.forall_mem_cons.1 h
    exact .cons hp.spells_write (ih hpieces)

theorem Numeral.SpellsUnsigned.write {n : Numeral} {s : List Char} (h : n.SpellsUnsigned s) :
    n.SpellsUnsigned (n.whole ++ n.fraction.elim [] ('.' :: ·) ++
      n.exponent.elim [] fun e => 'e' :: (if e.1 then ['-'] else []) ++ e.2) := by
  obtain ⟨hwhole, hzero, f, e, hf, he, -⟩ := h
  refine ⟨hwhole, hzero, _, _, ?_, ?_, rfl⟩
  · cases hf' : n.fraction with
    | none => exact .absent
    | some ds =>
      rw [hf'] at hf
      cases hf with
      | given hds => exact .given hds
  · cases he' : n.exponent with
    | none => exact .absent
    | some e =>
      obtain ⟨negative, ds⟩ := e
      rw [he'] at he
      cases he with
      | given _ _ hds =>
        cases negative with
        | false => exact .given (.inl rfl) .absent hds
        | true => exact .given (.inl rfl) .minus hds

/-- Something is written for the token that can be read back. -/
def Token.IsSound : Token → Prop
  | .text pieces => ∀ p ∈ pieces, p.IsSound
  | .number n => ∃ s, n.SpellsUnsigned s
  | .malformed => False
  | _ => True

/-- What is written for a token spells the token that is read back. -/
theorem Token.IsSound.spells_write {t : Token} (h : t.IsSound) : t.reread.Spells t.write := by
  match t, h with
  | .openBrace, _ => exact .openBrace
  | .closeBrace, _ => exact .closeBrace
  | .openBracket, _ => exact .openBracket
  | .closeBracket, _ => exact .closeBracket
  | .comma, _ => exact .comma
  | .colon, _ => exact .colon
  | .null, _ => exact .null
  | .flag true, _ => exact .flagTrue
  | .flag false, _ => exact .flagFalse
  | .text _, h => exact .text (spellsAll_write h)
  | .number n, ⟨_, h⟩ =>
    rw [Token.write, Numeral.write]
    cases hn : n.negative with
    | false => exact .number hn h.write
    | true => exact .negative hn h.write

theorem lexes_write {ts : List Token} (h : ∀ t ∈ ts, t.IsSound) :
    Lexes (ts.map Token.reread) (ts.flatMap Token.write) := by
  induction ts with
  | nil => exact .nil
  | cons t ts ih =>
    obtain ⟨ht, hts⟩ := List.forall_mem_cons.1 h
    exact .token ht.spells_write (ih hts)

/-- Every token of the document is one that can be read back. -/
def IsSound (v : Json) : Prop := ∀ t ∈ v.lexemes, t.IsSound

/-- **What is written for a document spells the document that is read back.** -/
theorem IsSound.spells_write {v : Json} (h : v.IsSound) : v.reread.Spells v.write := by
  rw [Spells, lexemes_reread, write_eq_flatMap]
  exact lexes_write h

/-! ### Documents of simple values -/

theorem isSound_null : Json.null.IsSound := List.forall_mem_singleton.2 trivial

theorem isSound_flag (b : Bool) : (Json.flag b).IsSound := List.forall_mem_singleton.2 trivial

theorem isSound_pieces (s : List Char) : ∀ p ∈ pieces s, p.IsSound := fun p hp => by
  obtain ⟨c, -, rfl⟩ := List.mem_map.1 hp
  rfl

theorem isSound_ofString (s : String) : (ofString s).IsSound :=
  List.forall_mem_singleton.2 (isSound_pieces s.toList)

theorem isSound_ofNat (n : Nat) : (ofNat n).IsSound := by
  refine List.forall_mem_singleton.2 ⟨_, ⟨Nat.toDigits_ne_nil, fun c hc =>
    Decimal.isDigit_of_isDigit (Decimal.isDigit_toDigits n c hc)⟩, fun c ds heq => ?_, [], [],
    .absent, .absent, rfl⟩
  -- only zero has a zero in front, and it has no other digit
  have heq : Nat.toDigits 10 n = '0' :: c :: ds := heq
  rcases Nat.eq_zero_or_pos n with rfl | hn
  · exact absurd heq (by simp)
  · exact Decimal.head?_toDigits hn (by rw [heq]; rfl)

theorem isSound_memberLexemes {members : List (List Piece × Json)}
    (h : ∀ m ∈ members, (∀ p ∈ m.1, p.IsSound) ∧ m.2.IsSound) :
    ∀ t ∈ memberLexemes members, t.IsSound := by
  induction members with
  | nil => exact nofun
  | cons m members ih =>
    obtain ⟨⟨hkey, hv⟩, hmembers⟩ := List.forall_mem_cons.1 h
    cases members with
    | nil => exact List.forall_mem_cons.2 ⟨hkey, List.forall_mem_cons.2 ⟨trivial, hv⟩⟩
    | cons m' members =>
      rw [memberLexemes_cons_cons]
      exact List.forall_mem_cons.2 ⟨hkey, List.forall_mem_cons.2 ⟨trivial,
        List.forall_mem_append.2 ⟨hv, List.forall_mem_cons.2 ⟨trivial, ih hmembers⟩⟩⟩⟩

theorem isSound_ofMembers {members : List (String × Json)} (h : ∀ m ∈ members, m.2.IsSound) :
    (ofMembers members).IsSound := by
  refine List.forall_mem_cons.2 ⟨trivial, List.forall_mem_append.2
    ⟨isSound_memberLexemes fun m hm => ?_, List.forall_mem_singleton.2 trivial⟩⟩
  obtain ⟨m, hmem, rfl⟩ := List.mem_map.1 hm
  exact ⟨isSound_pieces m.1.toList, h m hmem⟩

theorem textOnto_unit {n : Nat} (h : n < 0xD800) (read : List Char) (rest : List Piece) :
    textOnto read (.unit n :: rest) = textOnto (Char.ofNat n :: read) rest := by
  cases rest with
  | nil => exact if_pos (.inl h)
  | cons p rest =>
    cases p with
    | plain g => exact if_pos (.inl h)
    | unit m => exact if_pos (.inl h)

theorem textOnto_reread (read s : List Char) :
    textOnto read ((pieces s).map Piece.reread) = some (read.reverse ++ s) := by
  induction s generalizing read with
  | nil => exact congrArg some (List.append_nil _).symm
  | cons c s ih =>
    have hstep : textOnto read ((pieces (c :: s)).map Piece.reread) =
        textOnto (c :: read) ((pieces s).map Piece.reread) := by
      show textOnto read (Piece.reread (.plain (some c)) :: _) = _
      rw [Piece.reread]
      split
      · rename_i hc
        have hcontrol : c.toNat < 32 := of_decide_eq_true (Bool.and_eq_true_iff.1 hc).1
        rw [textOnto_unit (by omega), Char.ofNat_toNat]
        rfl
      · rfl
    rw [hstep, ih, List.reverse_cons, List.append_assoc, List.singleton_append]

/-- The text is the same when it is read back. -/
@[simp] theorem textOf?_reread (s : List Char) :
    textOf? ((pieces s).map Piece.reread) = some s := textOnto_reread [] s

theorem rereadMembers_eq_map (members : List (List Piece × Json)) :
    rereadMembers members = members.map fun m => (m.1.map Piece.reread, m.2.reread) := by
  induction members with
  | nil => rfl
  | cons m members ih => rw [rereadMembers, ih, List.map_cons]

theorem reread_ofMembers (members : List (String × Json)) :
    (ofMembers members).reread = .object
      (members.map fun m => ((pieces m.1.toList).map Piece.reread, m.2.reread)) true := by
  rw [ofMembers, reread, rereadMembers_eq_map, List.map_map]
  rfl

end DelegatedVoting.Json
