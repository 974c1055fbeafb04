import DelegatedVoting.Json.Records
import DelegatedVoting.Proofs.JsonWritten
import DelegatedVoting.Proofs.Rearrangements
import DelegatedVoting.Proofs.Spellings

/-!
# Records are read from their texts

The text that is written for a record is read as the record. The value that a text is read as stays
the same when the members of the objects that stand for records are reordered, and when members are
added that the records know nothing about.

* `Shape.IsReadBack`, `Shape.isReadBack_record`: what is written for a value is read back as the
  value;
* `Layout.proposal`, `Layout.tally`, …: where the documents of the records hold other records;
* `Shape.IsFaithful`: the texts of the values of a type are read as they should be;
* `Shape.Keeps`, `Shape.Keeps.isFaithful`: the same about documents, for one shape after another;
* `Shape.records_are_faithful`: the shapes of all the records are faithful.
-/

namespace DelegatedVoting.Json

/-! ### Values are read back -/

namespace Shape

variable {α β : Type} {f : Shape α} {g : Shape β}

/-- What is written for a value is read back as the value. -/
structure IsReadBack (f : Shape α) : Prop where
  isSound : ∀ a, (f.write a).IsSound
  read_reread : ∀ a, f.read (f.write a).reread = .ok a

theorem isReadBack_word32 : word32.IsReadBack := ⟨fun _ => isSound_ofNat _, read_word32⟩

theorem isReadBack_word64 : word64.IsReadBack := ⟨fun _ => isSound_ofNat _, read_word64⟩

theorem isReadBack_flag : flag.IsReadBack := ⟨isSound_flag, fun _ => rfl⟩

theorem readPieces_reread (s : List Char) :
    readPieces ((pieces s).map Piece.reread) = .ok s := readPieces_eq_ok_iff.2 (textOf?_reread s)

theorem isReadBack_textual {toText : α → String} {ofText : List Char → Option α}
    (h : ∀ a, ofText (toText a).toList = some a) : (textual toText ofText).IsReadBack where
  isSound a := isSound_ofString (toText a)
  read_reread a := by
    show (readPieces _ >>= _) = _
    rw [readPieces_reread, ok_bind, h]
    rfl

theorem isReadBack_text : text.IsReadBack :=
  isReadBack_textual fun _ => congrArg some String.ofList_toList

/-- Each value is listed under one name. -/
theorem isReadBack_names [DecidableEq α] {values : List (String × α)}
    (h : ∀ a, ∃ name, values.find? (·.2 = a) = some (name, a) ∧
      values.find? (·.1 = name) = some (name, a)) : (names values).IsReadBack where
  isSound a := isSound_ofString _
  read_reread a := by
    obtain ⟨name, hvalue, hname⟩ := h a
    show (readPieces ((pieces ((values.find? (·.2 = a)).elim "" (·.1)).toList).map Piece.reread)
      >>= _) = _
    rw [readPieces_reread, ok_bind, hvalue, Option.elim_some, String.ofList_toList, hname]
    rfl

theorem IsReadBack.along (h : f.IsReadBack) {ahead : α → β} {back : β → α}
    (hback : ∀ b, ahead (back b) = b) : (f.along ahead back).IsReadBack where
  isSound b := h.isSound (back b)
  read_reread b := by
    show ahead <$> f.read _ = _
    rw [Shape.along, h.read_reread]
    exact congrArg Except.ok (hback b)

theorem IsReadBack.nullable (h : f.IsReadBack) (hnull : ∀ a, (f.write a).reread ≠ .null) :
    (nullable f).IsReadBack where
  isSound
    | none => isSound_null
    | some a => h.isSound a
  read_reread
    | none => rfl
    | some a => by
      show (Shape.nullable f).read (f.write a).reread = _
      rw [read_nullable (hnull a), h.read_reread]
      rfl

theorem IsReadBack.either {leftKey rightKey : String} (hne : leftKey ≠ rightKey)
    (hf : f.IsReadBack) (hg : g.IsReadBack) : (either leftKey f rightKey g).IsReadBack where
  isSound
    | .inl a => isSound_ofMembers (List.forall_mem_singleton.2 (hf.isSound a))
    | .inr b => isSound_ofMembers (List.forall_mem_singleton.2 (hg.isSound b))
  read_reread
    | .inl a => by
      show (Shape.either leftKey f rightKey g).read (ofMembers [(leftKey, f.write a)]).reread = _
      rw [reread_ofMembers, List.map_singleton, read_either (textOf?_reread leftKey.toList),
        if_pos rfl, hf.read_reread]
      rfl
    | .inr b => by
      show (Shape.either leftKey f rightKey g).read (ofMembers [(rightKey, g.write b)]).reread = _
      rw [reread_ofMembers, List.map_singleton, read_either (textOf?_reread rightKey.toList),
        if_neg hne.symm, if_pos rfl, hg.read_reread]
      rfl

end Shape

/-! ### Records are read back -/

section Records

variable {fs : List Field}

/-- The members that are read where the fields of a record are written. -/
def rereadFields (fs : List Field) (values : Values fs) : List (List Piece × Json) :=
  (writeFields fs values).map fun m => ((pieces m.1.toList).map Piece.reread, m.2.reread)

theorem rereadFields_cons {f : Field} (a : f.Value) (values : Values fs) :
    rereadFields (f :: fs) (a, values) =
      ((pieces (f.keys.headD "").toList).map Piece.reread, (f.shape.write a).reread) ::
        rereadFields fs values := rfl

/-- The field has a key, and its values are read back. -/
structure Field.IsReadBack (f : Field) : Prop where
  keys_ne_nil : f.keys ≠ []
  shape : f.shape.IsReadBack

theorem Field.IsReadBack.holds {f : Field} (h : f.IsReadBack) (v : Json) :
    f.holds ((pieces (f.keys.headD "").toList).map Piece.reread, v) = true := by
  rw [Field.holds, textOf?_reread, Option.any_some, String.ofList_toList, List.contains_iff_mem]
  obtain ⟨key, keys, hkeys⟩ := List.exists_cons_of_ne_nil h.keys_ne_nil
  rw [hkeys]
  exact List.mem_cons_self

theorem exists_holds_of_mem_rereadFields (h : ∀ f ∈ fs, f.IsReadBack) {values : Values fs}
    {m : List Piece × Json} (hm : m ∈ rereadFields fs values) : ∃ f ∈ fs, f.holds m = true := by
  induction fs with
  | nil => cases hm
  | cons f fs ih =>
    obtain ⟨hf, hfs⟩ := List.forall_mem_cons.1 h
    obtain ⟨a, values⟩ := values
    rcases List.mem_cons.1 hm with rfl | hm
    · exact ⟨f, List.mem_cons_self, hf.holds _⟩
    · obtain ⟨g, hg, hholds⟩ := ih hfs hm
      exact ⟨g, List.mem_cons_of_mem f hg, hholds⟩

/-- Each field is given the value that was written for it. -/
theorem areRead_rereadFields (hapart : fs.Pairwise Field.Apart) (h : ∀ f ∈ fs, f.IsReadBack)
    (values : Values fs) : values.AreRead (rereadFields fs values) fs := by
  induction fs with
  | nil => trivial
  | cons f fs ih =>
    obtain ⟨hf, hfs⟩ := List.forall_mem_cons.1 h
    obtain ⟨hfirst, hrest⟩ := List.pairwise_cons.1 hapart
    obtain ⟨a, values⟩ := values
    have hholds := hf.holds (f.shape.write a).reread
    refine ⟨?_, (Values.areRead_congr fun g hg _ => Field.gives_congr ?_).2 (ih hrest hfs values)⟩
    · have hothers : (rereadFields fs values).filter f.holds = [] :=
        List.filter_eq_nil_iff.2 fun m hm hfm => by
          obtain ⟨g, hg, hgm⟩ := exists_holds_of_mem_rereadFields hfs hm
          rw [(hfirst g hg).holds_eq_false hgm] at hfm
          cases hfm
      rw [Field.Gives, rereadFields_cons, List.filter_cons_of_pos hholds, hothers]
      exact hf.shape.read_reread a
    · -- the member of the first field is nothing to the others
      refine List.filter_cons_of_neg fun hgm => ?_
      rw [(hfirst g hg).holds_eq_false hgm] at hholds
      cases hholds

theorem isSound_writeFields (h : ∀ f ∈ fs, f.IsReadBack) (values : Values fs) :
    ∀ m ∈ writeFields fs values, m.2.IsSound := by
  induction fs with
  | nil => exact nofun
  | cons f fs ih =>
    obtain ⟨hf, hfs⟩ := List.forall_mem_cons.1 h
    exact List.forall_mem_cons.2 ⟨hf.shape.isSound _, ih hfs _⟩

/-- **A record is read back** if the values of its fields are. -/
theorem Shape.isReadBack_record (hapart : fs.Pairwise Field.Apart) (h : ∀ f ∈ fs, f.IsReadBack) :
    (record fs).IsReadBack where
  isSound values := isSound_ofMembers (isSound_writeFields h values)
  read_reread values := by
    show (record fs).read (ofMembers (writeFields fs values)).reread = _
    rw [reread_ofMembers, read_object_eq_ok_iff hapart]
    refine ⟨fun m hm => ?_, areRead_rereadFields hapart h values⟩
    obtain ⟨m, -, rfl⟩ := List.mem_map.1 hm
    rw [textOf?_reread]
    rfl

end Records

/-! ### Faithful shapes -/

/-- The texts of the values of a type are read as they should be, where objects stand for records as
the layout says. -/
structure Shape.IsFaithful {α : Type} (f : Shape α) (l : Layout) : Prop where
  /-- What is written for a value is read as the value. -/
  parse_print : ∀ a, f.parse (f.print a) = .ok a
  /-- What is written for a value is the text of a document. -/
  exists_spells_print : ∀ a, ∃ v : Json, v.Spells (f.print a)
  /-- However a rearranged document is spelled, it is read as the same value. -/
  parse_eq_ok_iff_of_rearranges : ∀ (v v' : Json) (s s' : List Char), l.Rearranges v v' →
    v.Spells s → v'.Spells s' → ∀ a, f.parse s = .ok a ↔ f.parse s' = .ok a

/-- The documents of the values of a type are read as they should be. -/
structure Shape.Keeps {α : Type} (f : Shape α) (l : Layout) : Prop where
  isReadBack : f.IsReadBack
  respects : f.Respects l

/-- The field stands under the name alone, and its values are kept in the layout of the name. -/
structure Field.Keeps (f : Field) (named : String × Layout) : Prop where
  keys_eq : f.keys = [named.1]
  shape : f.shape.Keeps named.2

namespace Shape

variable {α β : Type} {f : Shape α} {g : Shape β} {l l' : Layout}

theorem parse_of_spells {v : Json} {s : List Char} (h : v.Spells s) : f.parse s = f.read v := by
  rw [parse, ofText?_of_spells h]

/-- Where the documents are read as they should be, the texts are. -/
theorem Keeps.isFaithful (h : f.Keeps l) : f.IsFaithful l where
  parse_print a := by
    rw [print, parse_of_spells (h.isReadBack.isSound a).spells_write, h.isReadBack.read_reread]
  exists_spells_print a := ⟨_, (h.isReadBack.isSound a).spells_write⟩
  parse_eq_ok_iff_of_rearranges v v' s s' hv hs hs' a := by
    rw [parse_of_spells hs, parse_of_spells hs']
    exact h.respects v v' hv a

theorem IsReadBack.keeps (h : f.IsReadBack) : f.Keeps .plain := ⟨h, respects_plain f⟩

theorem Keeps.along (h : f.Keeps l) {ahead : α → β} {back : β → α}
    (hback : ∀ b, ahead (back b) = b) : (f.along ahead back).Keeps l :=
  ⟨h.isReadBack.along hback, h.respects.along ahead back⟩

theorem Keeps.nullable (h : f.Keeps l) (hnull : ∀ a, (f.write a).reread ≠ .null) :
    (nullable f).Keeps l := ⟨h.isReadBack.nullable hnull, h.respects.nullable⟩

theorem Keeps.either {leftKey rightKey : String} (hne : leftKey ≠ rightKey) (hf : f.Keeps l)
    (hg : g.Keeps l') :
    (either leftKey f rightKey g).Keeps (.variant [(leftKey, l), (rightKey, l')]) :=
  ⟨.either hne hf.isReadBack hg.isReadBack, .either hne hf.respects hg.respects⟩

theorem keeps_record {fs : List Field} {fields : List (String × Layout)}
    (hapart : fs.Pairwise Field.Apart) (h : List.Forall₂ Field.Keeps fs fields) :
    (record fs).Keeps (.record fields) where
  isReadBack := isReadBack_record hapart fun f hf => by
    obtain ⟨named, -, hkeys, hshape⟩ := Forall₂.exists_left h hf
    exact ⟨hkeys ▸ List.cons_ne_nil _ _, hshape.isReadBack⟩
  respects := respects_record hapart (h.imp fun _ _ hf => ⟨hf.keys_eq, hf.shape.respects⟩)

end Shape

/-! ### The layouts of the records -/

namespace Layout

/-- A record none of whose fields holds another record. -/
def flat (names : List String) : Layout := .record (names.map fun name => (name, .plain))

def rules : Layout := flat ["finalize_policy", "max_statement_len"]

def counts : Layout := flat ["yes", "no", "abstain"]

def preview : Layout :=
  .record [("proposal_id", .plain), ("counts", counts), ("outcome", .plain), ("status", .plain)]

def tally : Layout :=
  flat ["proposal_id", "yes_count", "no_count", "abstain_count", "outcome", "finalized_by",
    "finalized_at"]

def proposal : Layout :=
  .record [("id", .plain), ("sequence", .plain), ("proposer_id", .plain), ("statement", .plain),
    ("status", .plain), ("created_at", .plain), ("result", tally)]

def action : Layout :=
  .variant [("DirectVote", flat ["voter_id", "is_yes", "seq"]),
    ("Delegation", flat ["voter_id", "delegate_id", "seq"])]

def ballotRecord : Layout := .record [("action", action), ("recorded_at", .plain)]

end Layout

/-! ### The shapes of the records -/

namespace Shape

theorem keeps_participantId : participantId.Keeps .plain := isReadBack_word32.keeps

theorem keeps_word64 : word64.Keeps .plain := isReadBack_word64.keeps

theorem keeps_timestamp : timestamp.Keeps .plain := keeps_word64

theorem keeps_proposalId : proposalId.Keeps .plain :=
  (isReadBack_textual fun p => by
    rw [show toString p = String.ofList p.write from rfl, String.toList_ofList]
    exact ProposalId.read?_eq_some_iff.2 (.groups p.grouped_write)).keeps

theorem keeps_outcome : outcome.Keeps .plain :=
  (isReadBack_names fun a => by cases a <;> exact ⟨_, rfl, rfl⟩).keeps

theorem keeps_status : status.Keeps .plain :=
  (isReadBack_names fun a => by cases a <;> exact ⟨_, rfl, rfl⟩).keeps

theorem keeps_vote : vote.Keeps .plain :=
  (isReadBack_names fun a => by cases a <;> exact ⟨_, rfl, rfl⟩).keeps

theorem keeps_finalizePolicy : finalizePolicy.Keeps .plain :=
  (isReadBack_names fun a => by cases a <;> exact ⟨_, rfl, rfl⟩).keeps

theorem keeps_rules : rules.Keeps .rules :=
  (keeps_record (by decide) <| .cons ⟨rfl, keeps_finalizePolicy⟩ <| .cons ⟨rfl, keeps_word64⟩
    .nil).along fun _ => rfl

theorem keeps_counts : counts.Keeps .counts :=
  (keeps_record (by decide) <| .cons ⟨rfl, keeps_word64⟩ <| .cons ⟨rfl, keeps_word64⟩ <|
    .cons ⟨rfl, keeps_word64⟩ .nil).along fun _ => rfl

theorem keeps_preview : preview.Keeps .preview :=
  (keeps_record (by decide) <| .cons ⟨rfl, keeps_proposalId⟩ <| .cons ⟨rfl, keeps_counts⟩ <|
    .cons ⟨rfl, keeps_outcome⟩ <| .cons ⟨rfl, keeps_status⟩ .nil).along fun _ => rfl

theorem keeps_tally : tally.Keeps .tally :=
  (keeps_record (by decide) <| .cons ⟨rfl, keeps_proposalId⟩ <| .cons ⟨rfl, keeps_word64⟩ <|
    .cons ⟨rfl, keeps_word64⟩ <| .cons ⟨rfl, keeps_word64⟩ <| .cons ⟨rfl, keeps_outcome⟩ <|
    .cons ⟨rfl, keeps_participantId⟩ <| .cons ⟨rfl, keeps_timestamp⟩ .nil).along fun _ => rfl

theorem keeps_proposal : proposal.Keeps .proposal :=
  (keeps_record (by decide) <| .cons ⟨rfl, keeps_proposalId⟩ <| .cons ⟨rfl, keeps_word64⟩ <|
    .cons ⟨rfl, keeps_participantId⟩ <| .cons ⟨rfl, isReadBack_text.keeps⟩ <|
    .cons ⟨rfl, keeps_status⟩ <| .cons ⟨rfl, keeps_timestamp⟩ <|
    .cons ⟨rfl, keeps_tally.nullable fun _ => nofun⟩ .nil).along fun _ => rfl

theorem keeps_action : action.Keeps .action :=
  (Keeps.either (by decide)
    (keeps_record (by decide) <| .cons ⟨rfl, keeps_participantId⟩ <|
      .cons ⟨rfl, isReadBack_flag.keeps⟩ <| .cons ⟨rfl, keeps_word64⟩ .nil)
    (keeps_record (by decide) <| .cons ⟨rfl, keeps_participantId⟩ <|
      .cons ⟨rfl, keeps_participantId⟩ <| .cons ⟨rfl, keeps_word64⟩ .nil)).along
    fun a => by cases a <;> rfl

theorem keeps_ballotRecord : ballotRecord.Keeps .ballotRecord :=
  (keeps_record (by decide) <| .cons ⟨rfl, keeps_action⟩ <| .cons ⟨rfl, keeps_timestamp⟩
    .nil).along fun _ => rfl

/-- **The texts of the records are read as they should be.** What is written for a record or for one
of the values that records are made of is read as that value, and the value that a text is read as
stays the same when the objects in it that stand for records list their members in another order or
have members under keys that the records do not know. -/
theorem records_are_faithful :
    proposal.IsFaithful .proposal ∧ tally.IsFaithful .tally ∧ action.IsFaithful .action ∧
      ballotRecord.IsFaithful .ballotRecord ∧ counts.IsFaithful .counts ∧
      preview.IsFaithful .preview ∧ vote.IsFaithful .plain ∧ rules.IsFaithful .rules ∧
      proposalId.IsFaithful .plain ∧ participantId.IsFaithful .plain ∧
      timestamp.IsFaithful .plain :=
  ⟨keeps_proposal.isFaithful, keeps_tally.isFaithful, keeps_action.isFaithful,
    keeps_ballotRecord.isFaithful, keeps_counts.isFaithful, keeps_preview.isFaithful,
    keeps_vote.isFaithful, keeps_rules.isFaithful, keeps_proposalId.isFaithful,
    keeps_participantId.isFaithful, keeps_timestamp.isFaithful⟩

/-- Counts in another order, with a member that they do not know. -/
example : counts.parse
    "\x7b\"no\": 2, \"more\": [null], \"abstain\": 3, \"yes\": 1\x7d".toList = .ok ⟨1, 2, 3⟩ := by
  cbv

end Shape

end DelegatedVoting.Json
