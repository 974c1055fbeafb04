import DelegatedVoting.Json.Shape
import DelegatedVoting.Proofs.Results

/-!
# Members of objects

What an object says is what its members say, in whatever order they stand.

* `Json.IsNumber`, `IsText`, `IsFlag`: the documents of simple values, with
  `Json.Shape.read_word32_eq_ok_iff` and its siblings: the values that are read from them;
* `Json.member?`, `Json.field?`: what an object has under a key, and the value that it spells;
* `Json.Field.Gives`, `Json.Values.AreRead`: the value that some members give to a field, and the
  values that they give to all the fields of a record;
* `Json.Shape.read_object_eq_ok_iff`: a record is read from a whole object where each field is given
  its value;
* `Json.Says`, `Json.Shape.read_record_eq_ok_iff`: what an object or an array says, and that a
  record whose fields must be given is read from it.
-/

namespace DelegatedVoting

namespace Json

/-! ### Simple values -/

theorem textOnto_pieces (read s : List Char) :
    textOnto read (pieces s) = some (read.reverse ++ s) := by
  induction s generalizing read with
  | nil => simp [pieces, textOnto]
  | cons c s ih =>
    show textOnto (c :: read) (pieces s) = _
    rw [ih, List.reverse_cons, List.append_assoc, List.singleton_append]

/-- The pieces of a text spell the text. -/
@[simp] theorem textOf?_pieces (s : List Char) : textOf? (pieces s) = some s := textOnto_pieces [] s

theorem le_ofDigitChars (n : Nat) (ds : List Char) : n ≤ Nat.ofDigitChars 10 ds n := by
  induction ds generalizing n with
  | nil => exact Nat.le_refl n
  | cons c ds ih =>
    rw [Nat.ofDigitChars_cons]
    exact Nat.le_trans (by omega) (ih _)

theorem readPieces_eq_ok_iff {key : List Piece} {s : List Char} :
    readPieces key = .ok s ↔ textOf? key = some s := by
  unfold readPieces
  cases textOf? key <;> simp

/-- No digit is left over if and only if the number fits 64 bits. -/
theorem leading_eq_iff {n m : Nat} (hn : n < UInt64.size) {ds : List Char} :
    leading n 0 ds = (m, 0) ↔ Nat.ofDigitChars 10 ds n = m ∧ m < UInt64.size := by
  induction ds generalizing n with
  | nil =>
    rw [leading, Nat.ofDigitChars_nil, Prod.mk.injEq]
    exact ⟨fun h => ⟨h.1, h.1 ▸ hn⟩, fun h => ⟨h.1, rfl⟩⟩
  | cons c ds ih =>
    rw [leading, Nat.ofDigitChars_cons]
    show (if 10 * n + (c.toNat - 48) < UInt64.size then _ else _) = _ ↔ _
    split
    · rename_i hnext
      exact ih hnext
    · rename_i hnext
      have hle := le_ofDigitChars (10 * n + (c.toNat - '0'.toNat)) ds
      refine iff_of_false (fun h => ?_) fun h => hnext (Nat.lt_of_le_of_lt hle (h.1 ▸ h.2))
      simp at h

/-- Digits write a number that fits 64 bits. -/
theorem word?_eq_some_iff {ds : List Char} {n : Nat} :
    word? ds = some n ↔ Nat.ofDigitChars 10 ds 0 = n ∧ n < UInt64.size := by
  rw [← leading_eq_iff (by decide), word?]
  generalize leading 0 0 ds = r
  obtain ⟨m, dropped⟩ := r
  cases dropped with
  | zero => simp
  | succ => simp

/-- The document is a number in digits. -/
def IsNumber (n : Nat) (d : Json) : Prop :=
  ∃ ds, d = .number ⟨false, ds, none, none⟩ ∧ Nat.ofDigitChars 10 ds 0 = n

/-- The document is a text. -/
def IsText (s : String) (d : Json) : Prop :=
  ∃ pieces, d = .text pieces ∧ textOf? pieces = some s.toList

/-- The document is true or false. -/
def IsFlag (b : Bool) (d : Json) : Prop := d = .flag b

theorem isNumber_ofNat (n : Nat) : IsNumber n (ofNat n) :=
  ⟨Nat.toDigits 10 n, rfl, Nat.ofDigitChars_ten_toDigits⟩

theorem isText_ofString (s : String) : IsText s (ofString s) := ⟨_, rfl, textOf?_pieces _⟩

namespace Shape

variable {d : Json}

/-- A number below a bound is read from its digits. -/
theorem read_natural_eq_ok_iff {bound n : Nat} (hbound : bound ≤ UInt64.size) :
    (natural bound).read d = .ok n ↔ IsNumber n d ∧ n < bound := by
  cases d with
  | number m =>
    have hunsigned : m.unsigned? = some n ↔ IsNumber n (.number m) ∧ n < UInt64.size := by
      obtain ⟨negative, ds, fraction, exponent⟩ := m
      cases negative <;> cases fraction <;> cases exponent <;>
        simp [Numeral.unsigned?, IsNumber, word?_eq_some_iff]
    have hlt (h : IsNumber n (.number m) ∧ n < bound) : n < UInt64.size :=
      Nat.lt_of_lt_of_le h.2 hbound
    rw [← and_iff_left_of_imp hlt, and_right_comm, ← hunsigned]
    simp only [natural]
    cases m.unsigned? with
    | none => simp
    | some k =>
      simp only [Option.some.injEq]
      split
      · rename_i hlt
        rw [Except.ok.injEq]
        exact ⟨fun h => ⟨h, h ▸ hlt⟩, fun h => h.1⟩
      · rename_i hlt
        simp only [reduceCtorEq, false_iff, not_and]
        exact fun h hn => hlt (h ▸ hn)
  | _ => simp [natural, IsNumber]

/-- The values that are written as numbers below a bound are read from their digits. -/
theorem read_along_natural_eq_ok_iff {α : Type} {bound : Nat} {ofNat : Nat → α} {toNat : α → Nat}
    (hbound : bound ≤ UInt64.size) (hof : ∀ a, ofNat (toNat a) = a) (hlt : ∀ a, toNat a < bound)
    (hto : ∀ n, n < bound → toNat (ofNat n) = n) {a : α} :
    ((natural bound).along ofNat toNat).read d = .ok a ↔ IsNumber (toNat a) d := by
  rw [← and_iff_left (hlt a) (a := IsNumber _ _), ← read_natural_eq_ok_iff hbound]
  constructor
  · intro h
    obtain ⟨n, hn, rfl⟩ := map_eq_ok h
    rwa [hto n ((read_natural_eq_ok_iff hbound).1 hn).2]
  · intro h
    show ofNat <$> (natural bound).read d = _
    rw [h]
    exact congrArg Except.ok (hof a)

/-- A number of 32 bits is read from its digits. -/
theorem read_word32_eq_ok_iff {n : UInt32} : word32.read d = .ok n ↔ IsNumber n.toNat d :=
  read_along_natural_eq_ok_iff (by decide) (fun _ => UInt32.ofNat_toNat) UInt32.toNat_lt
    fun _ => UInt32.toNat_ofNat_of_lt'

/-- A number of 64 bits is read from its digits. -/
theorem read_word64_eq_ok_iff {n : UInt64} : word64.read d = .ok n ↔ IsNumber n.toNat d :=
  read_along_natural_eq_ok_iff (Nat.le_refl _) (fun _ => UInt64.ofNat_toNat) UInt64.toNat_lt
    fun _ => UInt64.toNat_ofNat_of_lt'

/-- A text is read from its pieces. -/
theorem read_text_eq_ok_iff {s : String} : text.read d = .ok s ↔ IsText s d := by
  cases d with
  | text pieces =>
    show (readPieces pieces >>= fun s => pure (String.ofList s)) = .ok s ↔ _
    simp only [bind_eq_ok_iff, readPieces_eq_ok_iff, pure_eq_ok_iff, IsText, text.injEq,
      exists_eq_left']
    constructor
    · rintro ⟨cs, hcs, rfl⟩
      rwa [String.toList_ofList]
    · exact fun h => ⟨_, h, String.ofList_toList⟩
  | _ => simp [text, textual, IsText]

theorem read_flag_eq_ok_iff {b : Bool} : flag.read d = .ok b ↔ IsFlag b d := by
  cases d with
  | flag => simp [flag, IsFlag]
  | _ => simp [flag, IsFlag]

/-- A number of 32 bits is read back. -/
@[simp] theorem read_word32 (n : UInt32) : word32.read (ofNat n.toNat) = .ok n :=
  read_word32_eq_ok_iff.2 (isNumber_ofNat n.toNat)

/-- A number of 64 bits is read back. -/
@[simp] theorem read_word64 (n : UInt64) : word64.read (ofNat n.toNat) = .ok n :=
  read_word64_eq_ok_iff.2 (isNumber_ofNat n.toNat)

/-- A text is read back. -/
@[simp] theorem read_text (s : String) : text.read (ofString s) = .ok s :=
  read_text_eq_ok_iff.2 (isText_ofString s)

@[simp] theorem read_flag (b : Bool) : flag.read (.flag b) = .ok b := rfl

end Shape

/-! ### Members -/

/-- What a whole object has under a key. -/
def member? (d : Json) (key : String) : Option Json :=
  match d with
  | .object members true => (members.find? fun m => textOf? m.1 = some key.toList).map Prod.snd
  | _ => none

/-- The value that a whole object spells under a key. -/
def field? {α : Type} (d : Json) (key : String) (shape : Shape α) : Option α :=
  (d.member? key).bind fun v => (shape.read v).toOption

@[simp] theorem member?_ofMembers (members : List (String × Json)) (key : String) :
    (ofMembers members).member? key = members.lookup key := by
  show ((members.map fun m => (pieces m.1.toList, m.2)).find?
    fun m => textOf? m.1 = some key.toList).map Prod.snd = _
  induction members with
  | nil => rfl
  | cons m members ih =>
    rw [List.map_cons, List.find?_cons, List.lookup_cons]
    by_cases hkey : m.1 = key
    · simp [hkey]
    · have hne : m.1.toList ≠ key.toList := fun h => hkey (String.toList_inj.1 h)
      simp only [textOf?_pieces, Option.some.injEq, hne, decide_false, ih,
        beq_false_of_ne (Ne.symm hkey)]

/-- The value that an object spells under a key is the one that is written there. -/
theorem field?_ofMembers {α : Type} {members : List (String × Json)} {key : String} {v : Json}
    {shape : Shape α} {a : α} (hlookup : members.lookup key = some v)
    (hread : shape.read v = .ok a) : (ofMembers members).field? key shape = some a := by
  rw [field?, member?_ofMembers, hlookup, Option.bind_some, hread]
  rfl

/-! ### Records -/

/-- The key of the member is one of the keys of the field. -/
def Field.holds (f : Field) (m : List Piece × Json) : Bool :=
  (textOf? m.1).any fun s => f.keys.contains (String.ofList s)

/-- No key belongs to both fields. -/
def Field.Apart (f g : Field) : Prop := ∀ key ∈ f.keys, key ∉ g.keys

instance (f g : Field) : Decidable (f.Apart g) :=
  inferInstanceAs (Decidable (∀ key ∈ f.keys, key ∉ g.keys))

/-- One member of the field spells the value, or none is of the field and the value stands for a
field that is left out. -/
def Field.Gives (f : Field) (members : List (List Piece × Json)) (a : f.Value) : Prop :=
  match members.filter f.holds with
  | [] => f.absent = some a
  | [m] => f.shape.read m.2 = .ok a
  | _ => False

/-- Each field is given its value. -/
def Values.AreRead (members : List (List Piece × Json)) : (fs : List Field) → Values fs → Prop
  | [], _ => True
  | f :: fs, (a, values) => f.Gives members a ∧ AreRead members fs values

/-- Where no key belongs to two fields, no member is of both. -/
theorem Field.Apart.holds_eq_false {f g : Field} (h : f.Apart g) {m : List Piece × Json}
    (hg : g.holds m = true) : f.holds m = false := by
  obtain ⟨s, hs, hkey⟩ := (Option.any_eq_true _ _).1 hg
  rw [Field.holds, hs, Option.any_some]
  exact Bool.eq_false_iff.2 fun hmem =>
    h _ (List.contains_iff_mem.1 hmem) (List.contains_iff_mem.1 hkey)

/-- The members of one field are nothing to another. -/
theorem Field.Apart.filter_holds {f g : Field} (h : f.Apart g)
    (members : List (List Piece × Json)) :
    (members.filter fun m => !f.holds m).filter g.holds = members.filter g.holds := by
  rw [List.filter_filter]
  refine List.filter_congr fun m _ => ?_
  cases hg : g.holds m with
  | false => rfl
  | true => rw [h.holds_eq_false hg]; rfl

theorem readMembers_cons_eq_ok_iff {fs : List Field} {slots filled : Slots fs} {key : List Piece}
    {v : Json} {members : List (List Piece × Json)} :
    readMembers fs slots ((key, v) :: members) = .ok filled ↔
      ∃ s, textOf? key = some s ∧ ∃ slots', Slots.fill (String.ofList s) v fs slots = .ok slots' ∧
        readMembers fs slots' members = .ok filled := by
  show ((readPieces key) >>= fun s => Slots.fill (String.ofList s) v fs slots >>= fun slots =>
    readMembers fs slots members) = .ok filled ↔ _
  simp only [bind_eq_ok_iff, readPieces_eq_ok_iff]

/-- The slots of the fields, with one more. -/
def Slots.cons {f : Field} {fs : List Field} (slot : Option f.Value) (slots : Slots fs) :
    Slots (f :: fs) := (slot, slots)

/-- The values of the fields, with one more. -/
def Values.cons {f : Field} {fs : List Field} (a : f.Value) (values : Values fs) :
    Values (f :: fs) := (a, values)

section Fields

variable {f : Field} {fs : List Field} {slot slot' : Option f.Value} {slots slots' : Slots fs}
  {filled : Slots (f :: fs)} {key : String} {v : Json} {members members' : List (List Piece × Json)}

theorem Slots.exists_eq_cons (slots : Slots (f :: fs)) :
    ∃ (slot : Option f.Value) (rest : Slots fs), slots = .cons slot rest := ⟨_, _, rfl⟩

theorem Slots.cons_inj :
    cons slot slots = cons slot' slots' ↔ slot = slot' ∧ slots = slots' :=
  ⟨fun h => ⟨congrArg Prod.fst h, congrArg Prod.snd h⟩, fun h => by rw [h.1, h.2]⟩

/-- A member of the first field fills its slot, which must be empty. -/
theorem Slots.fill_of_contains (hkey : f.keys.contains key = true) :
    Slots.fill key v (f :: fs) (.cons slot slots) = match slot with
      | some _ => .error .mismatch
      | none => (f.shape.read v).map fun a => .cons (some a) slots := by
  show (if f.keys.contains key = true then _ else _) = _
  rw [if_pos hkey]
  cases slot with
  | some => rfl
  | none => cases f.shape.read v <;> rfl

/-- A member of another field leaves the first slot alone. -/
theorem Slots.fill_of_not_contains (hkey : f.keys.contains key = false) :
    Slots.fill key v (f :: fs) (.cons slot slots) =
      (Slots.fill key v fs slots).map (Slots.cons slot) := by
  show (if f.keys.contains key = true then _ else _) = _
  rw [if_neg (ne_true_of_eq_false hkey)]
  cases Slots.fill key v fs slots <;> rfl

theorem Slots.finish_cons :
    Slots.finish (f :: fs) (.cons slot slots) = match slot <|> f.absent with
      | some a => (Slots.finish fs slots).map (Values.cons a)
      | none => .error .mismatch := by
  show (match slot <|> f.absent with
    | some a => _
    | none => _) = _
  cases (slot <|> f.absent) with
  | none => rfl
  | some a => cases Slots.finish fs slots <;> rfl

/-- A member of the first field is read into its slot, which must be empty. -/
theorem readMembers_cons_of_holds {m : List Piece × Json} (h : f.holds m = true) :
    readMembers (f :: fs) (.cons slot slots) (m :: members) = .ok filled ↔ slot = none ∧
      ∃ a, f.shape.read m.2 = .ok a ∧
        readMembers (f :: fs) (.cons (some a) slots) members = .ok filled := by
  obtain ⟨s, hs, hkey⟩ := (Option.any_eq_true _ _).1 h
  rw [readMembers_cons_eq_ok_iff, hs]
  simp only [Option.some.injEq, exists_eq_left', Slots.fill_of_contains hkey]
  cases slot with
  | some => exact iff_of_false (fun ⟨_, h, _⟩ => nomatch h) fun h => nomatch h.1
  | none => cases f.shape.read m.2 <;> simp [Except.map]

/-- A member that is not of the first field is read into the other slots. -/
theorem readMembers_cons_of_not_holds {m : List Piece × Json} (h : f.holds m = false) :
    readMembers (f :: fs) (.cons slot slots) (m :: members) = .ok filled ↔
      ∃ s, textOf? m.1 = some s ∧ ∃ slots', Slots.fill (String.ofList s) m.2 fs slots = .ok slots' ∧
        readMembers (f :: fs) (.cons slot slots') members = .ok filled := by
  rw [readMembers_cons_eq_ok_iff]
  refine exists_congr fun s => and_congr_right fun hs => ?_
  rw [Field.holds, hs, Option.any_some] at h
  rw [Slots.fill_of_not_contains h]
  cases Slots.fill (String.ofList s) m.2 fs slots <;> simp [Except.map]

/-- What the members of a field make of its slot: one of them fills it, if it is empty. -/
def Field.Fills (f : Field) :
    Option f.Value → List (List Piece × Json) → Option f.Value → Prop
  | slot, [], slot' => slot' = slot
  | slot, m :: members, slot' =>
    slot = none ∧ ∃ a, f.shape.read m.2 = .ok a ∧ f.Fills (some a) members slot'

/-- The members of the first field fill its slot, and the others fill the other slots. -/
theorem readMembers_field_iff :
    readMembers (f :: fs) (.cons slot slots) members = .ok (.cons slot' slots') ↔
      f.Fills slot (members.filter f.holds) slot' ∧
        readMembers fs slots (members.filter fun m => !f.holds m) = .ok slots' := by
  induction members generalizing slot slots with
  | nil =>
    show Except.ok (Slots.cons slot slots) = _ ↔ slot' = slot ∧ Except.ok slots = _
    rw [Except.ok.injEq, Except.ok.injEq, Slots.cons_inj, eq_comm]
  | cons m members ih =>
    cases hm : f.holds m with
    | true =>
      rw [readMembers_cons_of_holds hm, List.filter_cons_of_pos hm,
        List.filter_cons_of_neg (by simp [hm])]
      simp only [ih, Field.Fills]
      constructor
      · rintro ⟨hslot, a, hread, hfills, hrest⟩
        exact ⟨⟨hslot, a, hread, hfills⟩, hrest⟩
      · rintro ⟨⟨hslot, a, hread, hfills⟩, hrest⟩
        exact ⟨hslot, a, hread, hfills, hrest⟩
    | false =>
      rw [readMembers_cons_of_not_holds hm,
        List.filter_cons_of_neg (ne_true_of_eq_false hm),
        List.filter_cons_of_pos (by simp [hm]), readMembers_cons_eq_ok_iff]
      simp only [ih]
      constructor
      · rintro ⟨s, hs, slots'', hfill, hfills, hrest⟩
        exact ⟨hfills, s, hs, slots'', hfill, hrest⟩
      · rintro ⟨hfills, s, hs, slots'', hfill, hrest⟩
        exact ⟨s, hs, slots'', hfill, hfills, hrest⟩

theorem Field.exists_fills_iff {a : f.Value} :
    (∃ slot, f.Fills none (members.filter f.holds) slot ∧ (slot <|> f.absent) = some a) ↔
      f.Gives members a := by
  unfold Field.Gives
  match members.filter f.holds with
  | [] => simp [Field.Fills]
  | [m] => simp [Field.Fills]
  | m :: m' :: rest => simp [Field.Fills]

/-- Only the members of a field matter to it. -/
theorem Field.gives_congr (h : members.filter f.holds = members'.filter f.holds) {a : f.Value} :
    f.Gives members a ↔ f.Gives members' a := by
  rw [Field.Gives, Field.Gives, h]

theorem Values.areRead_congr
    (h : ∀ f ∈ fs, ∀ a, Field.Gives f members a ↔ Field.Gives f members' a) {values : Values fs} :
    values.AreRead members fs ↔ values.AreRead members' fs := by
  induction fs with
  | nil => exact Iff.rfl
  | cons f fs ih =>
    obtain ⟨hf, hfs⟩ := List.forall_mem_cons.1 h
    exact and_congr (hf _) (ih hfs)

theorem readMembers_nil_iff {slots filled : Slots []} :
    readMembers [] slots members = .ok filled ↔ ∀ m ∈ members, (textOf? m.1).isSome = true := by
  induction members with
  | nil => exact iff_of_true rfl nofun
  | cons m members ih =>
    rw [readMembers_cons_eq_ok_iff, List.forall_mem_cons, Option.isSome_iff_exists]
    constructor
    · rintro ⟨s, hs, slots', hfill, hrest⟩
      exact ⟨⟨s, hs⟩, ih.1 hrest⟩
    · rintro ⟨⟨s, hs⟩, hrest⟩
      exact ⟨s, hs, slots, rfl, ih.2 hrest⟩

theorem Slots.finish_cons_eq_ok_iff {a : f.Value} {values : Values fs} :
    Slots.finish (f :: fs) (.cons slot slots) = .ok (.cons a values) ↔
      (slot <|> f.absent) = some a ∧ Slots.finish fs slots = .ok values := by
  rw [Slots.finish_cons]
  cases slot <|> f.absent with
  | none => exact iff_of_false nofun fun h => nomatch h.1
  | some b =>
    cases Slots.finish fs slots with
    | error x => exact iff_of_false nofun fun h => nomatch h.2
    | ok values' =>
      show Except.ok (Values.cons b values') = _ ↔ _
      rw [Except.ok.injEq, Except.ok.injEq, Option.some.injEq]
      exact Prod.mk.injEq b values' a values ▸ Iff.rfl

/-- Reading the members and finishing gives each field the value that its members spell. -/
theorem readMembers_finish_iff {values : Values fs} (hapart : fs.Pairwise Field.Apart) :
    (∃ filled, readMembers fs (Slots.empty fs) members = .ok filled ∧
      Slots.finish fs filled = .ok values) ↔
      (∀ m ∈ members, (textOf? m.1).isSome = true) ∧ values.AreRead members fs := by
  induction fs generalizing members with
  | nil =>
    constructor
    · rintro ⟨filled, hread, -⟩
      exact ⟨readMembers_nil_iff.1 hread, trivial⟩
    · rintro ⟨hkeys, -⟩
      exact ⟨(), readMembers_nil_iff.2 hkeys, rfl⟩
  | cons f fs ih =>
    obtain ⟨hfirst, hrest⟩ := List.pairwise_cons.1 hapart
    obtain ⟨a, values⟩ := values
    have hothers := @ih (members.filter fun m => !f.holds m) values hrest
    have hareRead : values.AreRead (members.filter fun m => !f.holds m) fs ↔
        values.AreRead members fs :=
      Values.areRead_congr fun g hg _ => Field.gives_congr ((hfirst g hg).filter_holds members)
    have hkeys : (∀ m ∈ members.filter fun m => !f.holds m, (textOf? m.1).isSome = true) ↔
        ∀ m ∈ members, (textOf? m.1).isSome = true := by
      refine ⟨fun h m hm => ?_, fun h m hm => h m (List.mem_of_mem_filter hm)⟩
      cases hf : f.holds m with
      | false => exact h m (List.mem_filter.2 ⟨hm, by rw [hf]; rfl⟩)
      | true =>
        obtain ⟨s, hs, -⟩ := (Option.any_eq_true _ _).1 hf
        rw [hs]
        rfl
    rw [hkeys, hareRead] at hothers
    show _ ↔ _ ∧ f.Gives members a ∧ values.AreRead members fs
    rw [and_left_comm, ← hothers, ← Field.exists_fills_iff]
    constructor
    · rintro ⟨filled, hread, hfinish⟩
      obtain ⟨slot, slots, rfl⟩ := filled.exists_eq_cons
      obtain ⟨hfills, hslots⟩ := (@readMembers_field_iff f fs none _ _ _ members).1 hread
      obtain ⟨ha, hvalues⟩ := Slots.finish_cons_eq_ok_iff.1 hfinish
      exact ⟨⟨slot, hfills, ha⟩, slots, hslots, hvalues⟩
    · rintro ⟨⟨slot, hfills, ha⟩, slots, hslots, hvalues⟩
      exact ⟨.cons slot slots, readMembers_field_iff.2 ⟨hfills, hslots⟩,
        Slots.finish_cons_eq_ok_iff.2 ⟨ha, hvalues⟩⟩

/-- **A record is read from a whole object whose keys are texts, where each field is given its
value.** -/
theorem Shape.read_object_eq_ok_iff {values : Values fs} (hapart : fs.Pairwise Field.Apart) :
    (record fs).read (.object members true) = .ok values ↔
      (∀ m ∈ members, (textOf? m.1).isSome = true) ∧ values.AreRead members fs := by
  rw [← readMembers_finish_iff hapart]
  exact bind_eq_ok_iff

end Fields

/-! ### What documents say -/

/-- The key of the member is one of the keys. -/
def isUnder (keys : List String) (m : List Piece × Json) : Bool :=
  (textOf? m.1).any fun s => keys.contains (String.ofList s)

/-- The document says what is listed: it is an object in which exactly one member stands under the
keys of each part and says the part, or it is an array whose items say the parts in their order. The
members of an object may stand in any order, and under other keys there may be anything. -/
def Says (parts : List (List String × (Json → Prop))) : Json → Prop
  | .object members true => (∀ m ∈ members, (textOf? m.1).isSome = true) ∧
    ∀ part ∈ parts, ∃ m, members.filter (isUnder part.1) = [m] ∧ part.2 m.2
  | .array items true => List.Forall₂ (fun part v => part.2 v) parts items
  | _ => False

/-- What a document says from which the values are read. -/
def Values.parts : (fs : List Field) → Values fs → List (List String × (Json → Prop))
  | [], _ => []
  | f :: fs, (a, values) => (f.keys, fun v => f.shape.read v = .ok a) :: parts fs values

section Required

variable {fs : List Field} {values : Values fs} {d : Json}

/-- A field that must be given is given by exactly one member. -/
theorem Field.gives_iff {f : Field} (h : f.absent = none) {members : List (List Piece × Json)}
    {a : f.Value} : f.Gives members a ↔
      ∃ m, members.filter (isUnder f.keys) = [m] ∧ f.shape.read m.2 = .ok a := by
  show (match members.filter (isUnder f.keys) with
    | [] => f.absent = some a
    | [m] => f.shape.read m.2 = .ok a
    | _ => False) ↔ _
  rw [h]
  match members.filter (isUnder f.keys) with
  | [] => simp
  | [m] => simp
  | m :: m' :: rest => simp

theorem Values.areRead_iff (h : ∀ f ∈ fs, f.absent = none) {members : List (List Piece × Json)} :
    values.AreRead members fs ↔ ∀ part ∈ parts fs values,
      ∃ m, members.filter (isUnder part.1) = [m] ∧ part.2 m.2 := by
  induction fs with
  | nil => exact iff_of_true trivial nofun
  | cons f fs ih =>
    obtain ⟨a, values⟩ := values
    rw [List.forall_mem_cons] at h
    show f.Gives members a ∧ values.AreRead members fs ↔ _
    rw [Values.parts, List.forall_mem_cons, ih h.2, Field.gives_iff h.1]

/-- The items of a whole array are read where they say the parts in their order. -/
theorem readItems_eq_ok_iff (h : ∀ f ∈ fs, f.omitted = none) {items : List Json} {closed : Bool} :
    readItems fs items closed = .ok values ↔
      closed = true ∧ List.Forall₂ (fun part v => part.2 v) (values.parts fs) items := by
  induction fs generalizing items with
  | nil =>
    cases items with
    | nil =>
      cases closed with
      | true => exact iff_of_true rfl ⟨rfl, .nil⟩
      | false => exact iff_of_false nofun fun h => nomatch h.1
    | cons v items => exact iff_of_false nofun fun h => nomatch h.2
  | cons f fs ih =>
    obtain ⟨a, values⟩ := values
    rw [List.forall_mem_cons] at h
    cases items with
    | nil =>
      refine iff_of_false (fun hread => ?_) fun h => nomatch h.2
      cases closed with
      | false => cases hread
      | true =>
        simp only [readItems, h.1] at hread
        cases hread
    | cons v items =>
      show (f.shape.read v >>= fun a => readItems fs items closed >>= fun rest =>
        pure (Values.cons a rest)) = .ok (Values.cons a values) ↔ _
      rw [Values.parts, List.forall₂_cons, and_left_comm, ← ih h.2]
      simp only [bind_eq_ok_iff, pure_eq_ok_iff]
      constructor
      · rintro ⟨b, hb, rest, hrest, heq⟩
        obtain ⟨rfl, rfl⟩ := Prod.mk.inj heq
        exact ⟨hb, hrest⟩
      · rintro ⟨ha, hvalues⟩
        exact ⟨a, ha, values, hvalues, rfl⟩

/-- **A record whose fields must be given is read from a document that says their values.** -/
theorem Shape.read_record_eq_ok_iff (hapart : fs.Pairwise Field.Apart)
    (hrequired : ∀ f ∈ fs, f.absent = none ∧ f.omitted = none) :
    (record fs).read d = .ok values ↔ d.Says (values.parts fs) := by
  cases d with
  | object members closed =>
    cases closed with
    | true =>
      rw [read_object_eq_ok_iff hapart, Values.areRead_iff fun f hf => (hrequired f hf).1]
      rfl
    | false =>
      refine iff_of_false (fun h => ?_) id
      obtain ⟨filled, -, hfinish⟩ := bind_eq_ok_iff.1 h
      cases hfinish
  | array items closed =>
    show readItems fs items closed = _ ↔ _
    rw [readItems_eq_ok_iff fun f hf => (hrequired f hf).2]
    cases closed with
    | true => exact and_iff_right rfl
    | false => exact iff_of_false nofun id
  | _ => exact iff_of_false nofun id

/-- Values of another type are read where the values of this one are. -/
theorem Shape.read_along_eq_ok_iff {α β : Type} {f : Shape α} {ahead : α → β} {back : β → α}
    (h : ∀ a b, ahead a = b ↔ a = back b) {b : β} :
    (f.along ahead back).read d = .ok b ↔ f.read d = .ok (back b) := by
  show ahead <$> f.read d = _ ↔ _
  constructor
  · intro hread
    obtain ⟨a, ha, hab⟩ := map_eq_ok hread
    rw [ha, (h a b).1 hab]
  · intro hread
    rw [hread]
    exact congrArg Except.ok ((h (back b) b).2 rfl)

end Required

end Json

end DelegatedVoting
