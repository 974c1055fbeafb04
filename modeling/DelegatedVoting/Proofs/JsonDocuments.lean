import DelegatedVoting.Json.Document
import DelegatedVoting.Proofs.JsonTokens

/-!
# Documents are read from the texts that spell them

A document says its tokens in one way, and a text that spells these tokens spells the document.
Whatever text spells a document is read as that document.

* `lexemes`: the tokens of a document;
* `Spells`: the texts of a document;
* `build_lexemes`: the tokens of a document are put together again;
* `ofText?_of_spells`: a text is read as the document that it spells.
-/

namespace DelegatedVoting.Json

/-! ### The tokens of a document -/

mutual

/-- The tokens of a document. Where it has a hole, and where a list was not closed, stands a token
that no text spells. -/
def lexemes : Json → List Token
  | .null => [.null]
  | .flag b => [.flag b]
  | .number n => [.number n]
  | .text pieces => [.text pieces]
  | .array items closed =>
    .openBracket :: itemLexemes items ++ [if closed then .closeBracket else .malformed]
  | .object members closed =>
    .openBrace :: memberLexemes members ++ [if closed then .closeBrace else .malformed]
  | .hole => [.malformed]

/-- The tokens of the items of an array, with commas between them. -/
def itemLexemes : List Json → List Token
  | [] => []
  | [v] => lexemes v
  | v :: w :: rest => lexemes v ++ .comma :: itemLexemes (w :: rest)

/-- The tokens of the members of an object, with commas between them. -/
def memberLexemes : List (List Piece × Json) → List Token
  | [] => []
  | [(key, v)] => .text key :: .colon :: lexemes v
  | (key, v) :: m :: rest => .text key :: .colon :: lexemes v ++ .comma :: memberLexemes (m :: rest)

end

/-- The texts of a document. -/
def Spells (v : Json) (s : List Char) : Prop := Lexes v.lexemes s

/-! ### Documents are put together from their tokens -/

/-- What is done with a document that is complete: it is handed to the innermost frame. -/
def deliver (stack : List Frame) (v : Json) (rest : List Token) : Json × List Token :=
  match stack with
  | [] => (v, rest)
  | f :: stack => build (f.push v :: stack) .separator rest

/-- The first item of an array is read like every other one. -/
theorem build_firstItem {v : Json} (h : .malformed ∉ v.lexemes) (f : Frame) (stack : List Frame)
    (rest : List Token) : build (f :: stack) .firstItem (v.lexemes ++ rest) =
      build (f :: stack) .value (v.lexemes ++ rest) := by
  cases v with
  | hole => exact absurd List.mem_cons_self h
  | _ => rfl

/-- The first key of an object is read like every other one. -/
theorem build_firstKey (m : List Piece × Json) (members : List (List Piece × Json))
    (stack : List Frame) (rest : List Token) :
    build (.object [] [] :: stack) .firstKey (memberLexemes (m :: members) ++ rest) =
      build (.object [] [] :: stack) .key (memberLexemes (m :: members) ++ rest) := by
  cases members <;> rfl

theorem itemLexemes_cons_cons (v w : Json) (rest : List Json) :
    itemLexemes (v :: w :: rest) = v.lexemes ++ .comma :: itemLexemes (w :: rest) := rfl

theorem memberLexemes_cons_cons (key : List Piece) (v : Json) (m : List Piece × Json)
    (rest : List (List Piece × Json)) : memberLexemes ((key, v) :: m :: rest) =
      .text key :: .colon :: (v.lexemes ++ .comma :: memberLexemes (m :: rest)) := rfl

theorem exists_itemLexemes_cons (v : Json) (items : List Json) :
    ∃ more, itemLexemes (v :: items) = v.lexemes ++ more := by
  cases items with
  | nil => exact ⟨[], (List.append_nil _).symm⟩
  | cons w items => exact ⟨_, rfl⟩

mutual

/-- **The tokens of a document are put together again**, inside whatever has been opened. -/
theorem build_lexemes : ∀ (v : Json), .malformed ∉ v.lexemes → ∀ (stack : List Frame)
    (rest : List Token), build stack .value (v.lexemes ++ rest) = deliver stack v rest
  | .null, _, stack, rest | .flag _, _, stack, rest | .number _, _, stack, rest
  | .text _, _, stack, rest => by cases stack <;> rfl
  | .array items false, h, _, _ | .object items false, h, _, _ =>
    absurd (List.mem_append_right _ List.mem_cons_self) h
  | .array [] true, _, stack, rest | .object [] true, _, stack, rest => by cases stack <;> rfl
  | .array (v :: items) true, h, stack, rest => by
    have hitems : .malformed ∉ itemLexemes (v :: items) := fun hmem =>
      h (List.mem_cons_of_mem _ (List.mem_append_left _ hmem))
    have hread := build_itemLexemes (v :: items) (List.cons_ne_nil v items) hitems [] stack rest
    -- behind the bracket an item is expected or the end, and an item stands there
    obtain ⟨more, hmore⟩ := exists_itemLexemes_cons v items
    have hv : .malformed ∉ v.lexemes := fun hmem =>
      hitems (by rw [hmore]; exact List.mem_append_left _ hmem)
    show build (.array [] :: stack) .firstItem
      ((itemLexemes (v :: items) ++ [.closeBracket]) ++ rest) = _
    rw [List.append_assoc, List.singleton_append, hmore, List.append_assoc, build_firstItem hv,
      ← List.append_assoc, ← hmore, hread]
    rfl
  | .object (m :: members) true, h, stack, rest => by
    have hmembers : .malformed ∉ memberLexemes (m :: members) := fun hmem =>
      h (List.mem_cons_of_mem _ (List.mem_append_left _ hmem))
    show build (.object [] [] :: stack) .firstKey
      ((memberLexemes (m :: members) ++ [.closeBrace]) ++ rest) = _
    rw [List.append_assoc, List.singleton_append, build_firstKey,
      build_memberLexemes (m :: members) (List.cons_ne_nil m members) hmembers [] [] stack rest]
    rfl
  | .hole, h, _, _ => absurd List.mem_cons_self h

/-- The tokens of some items are put together behind the items of an array. -/
theorem build_itemLexemes : ∀ (items : List Json), items ≠ [] → .malformed ∉ itemLexemes items →
    ∀ (done : List Json) (stack : List Frame) (rest : List Token),
    build (.array done :: stack) .value (itemLexemes items ++ .closeBracket :: rest) =
      deliver stack (.array (done.reverse ++ items) true) rest
  | [], h, _, _, _, _ => absurd rfl h
  | [v], _, h, done, stack, rest => by
    show build _ _ (v.lexemes ++ _) = _
    rw [build_lexemes v h (.array done :: stack) (.closeBracket :: rest), ← List.reverse_cons]
    cases stack <;> rfl
  | v :: w :: items, _, h, done, stack, rest => by
    rw [itemLexemes_cons_cons, List.mem_append, List.mem_cons, not_or, not_or] at h
    rw [itemLexemes_cons_cons, List.append_assoc, List.cons_append, build_lexemes v h.1]
    show build (.array (v :: done) :: stack) .value _ = _
    rw [build_itemLexemes (w :: items) (List.cons_ne_nil w items) h.2.2, List.reverse_cons,
      List.append_assoc, List.singleton_append]

/-- The tokens of some members are put together behind the members of an object. -/
theorem build_memberLexemes : ∀ (members : List (List Piece × Json)), members ≠ [] →
    .malformed ∉ memberLexemes members →
    ∀ (done : List (List Piece × Json)) (key : List Piece) (stack : List Frame) (rest : List Token),
    build (.object done key :: stack) .key (memberLexemes members ++ .closeBrace :: rest) =
      deliver stack (.object (done.reverse ++ members) true) rest
  | [], h, _, _, _, _, _ => absurd rfl h
  | [(key, v)], _, h, done, _, stack, rest => by
    show build (.object done key :: stack) .value (v.lexemes ++ .closeBrace :: rest) = _
    rw [build_lexemes v fun hmem => h (List.mem_cons_of_mem _ (List.mem_cons_of_mem _ hmem)),
      ← List.reverse_cons]
    cases stack <;> rfl
  | (key, v) :: m :: members, _, h, done, _, stack, rest => by
    rw [memberLexemes_cons_cons, List.mem_cons, List.mem_cons, List.mem_append, List.mem_cons] at h
    simp only [not_or] at h
    rw [memberLexemes_cons_cons, List.cons_append, List.cons_append, List.append_assoc,
      List.cons_append]
    show build (.object done key :: stack) .value _ = _
    rw [build_lexemes v h.2.2.1]
    show build (.object ((key, v) :: done) key :: stack) .key _ = _
    rw [build_memberLexemes (m :: members) (List.cons_ne_nil m members) h.2.2.2.2,
      List.reverse_cons, List.append_assoc, List.singleton_append]

end

/-! ### Documents are read -/

theorem Lexes.exists_spells {ts : List Token} {s : List Char} (h : Lexes ts s) {t : Token}
    (ht : t ∈ ts) : ∃ s, t.Spells s := by
  induction h with
  | nil => cases ht
  | blank _ _ ih => exact ih ht
  | token hs _ ih =>
    rcases List.mem_cons.1 ht with rfl | ht
    · exact ⟨_, hs⟩
    · exact ih ht

theorem Lexes.malformed_not_mem {ts : List Token} {s : List Char} (h : Lexes ts s) :
    .malformed ∉ ts := fun hmem => nomatch h.exists_spells hmem

mutual

/-- The numbers of a document are told apart from what follows them. -/
theorem separated_lexemes : ∀ (v : Json) {rest : List Token},
    (∀ t ∈ rest.head?, t.closes = true) → Separated rest → Separated (v.lexemes ++ rest)
  | .null, _, _, hrest | .flag _, _, _, hrest | .text _, _, _, hrest | .hole, _, _, hrest => hrest
  | .number _, [], _, _ => trivial
  | .number _, t :: _, hclose, hrest => ⟨hclose t rfl, hrest⟩
  | .array items closed, rest, _, hrest => by
    show Separated ((itemLexemes items ++ [_]) ++ rest)
    rw [List.append_assoc, List.singleton_append]
    cases closed
    · exact separated_itemLexemes items (by rintro _ ⟨⟩; rfl) hrest
    · exact separated_itemLexemes items (by rintro _ ⟨⟩; rfl) hrest
  | .object members closed, rest, _, hrest => by
    show Separated ((memberLexemes members ++ [_]) ++ rest)
    rw [List.append_assoc, List.singleton_append]
    cases closed
    · exact separated_memberLexemes members (by rintro _ ⟨⟩; rfl) hrest
    · exact separated_memberLexemes members (by rintro _ ⟨⟩; rfl) hrest

theorem separated_itemLexemes : ∀ (items : List Json) {rest : List Token},
    (∀ t ∈ rest.head?, t.closes = true) → Separated rest → Separated (itemLexemes items ++ rest)
  | [], _, _, hrest => hrest
  | [v], _, hclose, hrest => separated_lexemes v hclose hrest
  | v :: w :: items, _, hclose, hrest => by
    rw [itemLexemes_cons_cons, List.append_assoc, List.cons_append]
    exact separated_lexemes v (by rintro _ ⟨⟩; rfl)
      (separated_itemLexemes (w :: items) hclose hrest)

theorem separated_memberLexemes : ∀ (members : List (List Piece × Json)) {rest : List Token},
    (∀ t ∈ rest.head?, t.closes = true) → Separated rest → Separated (memberLexemes members ++ rest)
  | [], _, _, hrest => hrest
  | [(_, v)], _, hclose, hrest => separated_lexemes v hclose hrest
  | (_, v) :: m :: members, rest, hclose, hrest => by
    rw [memberLexemes_cons_cons, List.cons_append, List.cons_append, List.append_assoc,
      List.cons_append]
    exact separated_lexemes v (by rintro _ ⟨⟩; rfl)
      (separated_memberLexemes (m :: members) hclose hrest)

end

/-- **A text is read as the document that it spells.** -/
theorem ofText?_of_spells {v : Json} {s : List Char} (h : v.Spells s) : ofText? s = some v := by
  have hsep : Separated v.lexemes := by
    rw [← List.append_nil v.lexemes]
    exact separated_lexemes v nofun trivial
  have hbuild := build_lexemes v h.malformed_not_mem [] []
  rw [List.append_nil] at hbuild
  rw [ofText?, tokens_of_lexes h hsep, ofTokens, hbuild]
  rfl

end DelegatedVoting.Json
