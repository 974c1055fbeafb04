import Mathlib.Data.List.Pairwise
import Mathlib.Data.List.Perm.Basic
import DelegatedVoting.Proofs.Members

/-!
# Rearranged documents

Where a document stands for a record, its object may list the members in another order and may have
members that the record knows nothing about. The value that is read stays the same, however deep the
object is inside the document.

* `Field.gives_of_perm`, `Field.gives_cons_congr`: what a field is given by members in another order
  or with another value;
* `Layout`: where the objects of a document stand for records;
* `Layout.Rearranges`: the documents that come from a document by reordering and extending these
  objects;
* `Shape.Respects`: a rearranged document is read as the same value;
* `Shape.respects_record`, `Shape.Respects.either`, `Shape.Respects.nullable`: records respect a
  layout if their fields do.
-/

namespace DelegatedVoting.Json

/-! ### Members in another order and with other values -/

section Fields

variable {f : Field} {members members' : List (List Piece × Json)}

/-- The order of the members does not matter to a field. -/
theorem Field.gives_of_perm (h : members.Perm members') {a : f.Value} :
    f.Gives members a ↔ f.Gives members' a := by
  have hperm := h.filter f.holds
  rw [Field.Gives, Field.Gives]
  generalize members.filter f.holds = held at hperm ⊢
  generalize members'.filter f.holds = held' at hperm ⊢
  rcases held with _ | ⟨m₁, _ | ⟨m₂, rest⟩⟩
  · rw [hperm.nil_eq]
  · rw [hperm.singleton_eq]
  · have hlength := hperm.length_eq
    rcases held' with _ | ⟨m₁', _ | ⟨m₂', rest'⟩⟩
    · cases hlength
    · cases hlength
    · exact Iff.rfl

/-- A field reads one value as well as another where it reads the same from both. -/
theorem Field.gives_cons_congr {key : List Piece} {v v' : Json}
    (h : f.holds (key, v) = true → ∀ a, f.shape.read v = .ok a ↔ f.shape.read v' = .ok a)
    {a : f.Value} : f.Gives ((key, v) :: members) a ↔ f.Gives ((key, v') :: members) a := by
  have hholds : f.holds (key, v') = f.holds (key, v) := rfl
  cases hf : f.holds (key, v) with
  | false =>
    refine Field.gives_congr ?_
    rw [List.filter_cons_of_neg (ne_true_of_eq_false hf),
      List.filter_cons_of_neg (ne_true_of_eq_false (hholds.trans hf))]
  | true =>
    rw [Field.Gives, Field.Gives, List.filter_cons_of_pos hf, List.filter_cons_of_pos (hholds ▸ hf)]
    cases members.filter f.holds with
    | nil => exact h hf a
    | cons m rest => exact Iff.rfl

end Fields

/-! ### Rearranged documents -/

/-- Where the objects of a document stand for records. -/
inductive Layout
  /-- No object stands for a record. -/
  | plain
  /-- The document stands for a record with the named fields. -/
  | record (fields : List (String × Layout))
  /-- The document is an object with one key, and its value stands for what the key names. -/
  | variant (cases : List (String × Layout))

/-- One document comes from another by reordering the members of the objects that stand for records,
and by adding members to them under keys that name no field. -/
inductive Layout.Rearranges : Layout → Json → Json → Prop
  | refl (l : Layout) (v : Json) : Rearranges l v v
  | trans {l : Layout} {v v' v'' : Json} : Rearranges l v v' → Rearranges l v' v'' →
    Rearranges l v v''
  | permute {fields : List (String × Layout)} {members members' : List (List Piece × Json)} :
    members.Perm members' →
    Rearranges (.record fields) (.object members true) (.object members' true)
  | extend {fields : List (String × Layout)} {members : List (List Piece × Json)}
    {key : List Piece} {name : String} (v : Json) : textOf? key = some name.toList →
    name ∉ fields.map Prod.fst →
    Rearranges (.record fields) (.object members true) (.object ((key, v) :: members) true)
  | member {fields : List (String × Layout)} {members : List (List Piece × Json)}
    {key : List Piece} {name : String} {l : Layout} {v v' : Json} : textOf? key = some name.toList →
    (name, l) ∈ fields → Rearranges l v v' →
    Rearranges (.record fields) (.object ((key, v) :: members) true)
      (.object ((key, v') :: members) true)
  | item {fields : List (String × Layout)} {before after : List Json} {name : String} {l : Layout}
    {v v' : Json} : fields[before.length]? = some (name, l) → Rearranges l v v' →
    Rearranges (.record fields) (.array (before ++ v :: after) true)
      (.array (before ++ v' :: after) true)
  | content {cases : List (String × Layout)} {key : List Piece} {name : String} {l : Layout}
    {v v' : Json} : textOf? key = some name.toList → (name, l) ∈ cases → Rearranges l v v' →
    Rearranges (.variant cases) (.object [(key, v)] true) (.object [(key, v')] true)

/-- A rearranged document is read as the same value. -/
def Shape.Respects {α : Type} (f : Shape α) (l : Layout) : Prop :=
  ∀ v v', l.Rearranges v v' → ∀ a, f.read v = .ok a ↔ f.read v' = .ok a

theorem Layout.Rearranges.eq_of_plain {v v' : Json} (h : Layout.plain.Rearranges v v') :
    v = v' := by
  generalize hl : Layout.plain = l at h
  induction h with
  | refl => rfl
  | trans _ _ ih ih' => exact (ih hl).trans (ih' hl)
  | permute | extend | member | item | content => cases hl

/-- A document that is no list stays what it is. -/
theorem Layout.Rearranges.null_iff {l : Layout} {v v' : Json} (h : l.Rearranges v v') :
    v = .null ↔ v' = .null := by
  induction h with
  | refl => rfl
  | trans _ _ ih ih' => exact ih.trans ih'
  | permute | extend | member | item | content => exact iff_of_false nofun nofun

namespace Shape

section Respects

variable {α β : Type} {f : Shape α} {g : Shape β} {l : Layout}

theorem respects_plain (f : Shape α) : f.Respects .plain := fun v v' h a => by
  rw [h.eq_of_plain]

theorem map_eq_ok_iff {r : Except Fault α} {ahead : α → β} {b : β} :
    ahead <$> r = .ok b ↔ ∃ a, r = .ok a ∧ ahead a = b := by
  cases r <;> simp [Functor.map, Except.map]

theorem Respects.along (h : f.Respects l) (ahead : α → β) (back : β → α) :
    (f.along ahead back).Respects l := fun v v' hv b => by
  show ahead <$> f.read v = _ ↔ ahead <$> f.read v' = _
  rw [map_eq_ok_iff, map_eq_ok_iff]
  exact exists_congr fun a => and_congr_left fun _ => h v v' hv a

theorem read_nullable {v : Json} (h : v ≠ .null) : (nullable f).read v = some <$> f.read v := by
  cases v with
  | null => exact absurd rfl h
  | _ => rfl

theorem Respects.nullable (h : f.Respects l) : (nullable f).Respects l := fun v v' hv b => by
  by_cases hnull : v = .null
  · rw [hnull, hv.null_iff.1 hnull]
  · rw [read_nullable hnull, read_nullable (mt hv.null_iff.2 hnull), map_eq_ok_iff, map_eq_ok_iff]
    exact exists_congr fun a => and_congr_left fun _ => h v v' hv a

theorem read_either {leftKey rightKey name : String} {key : List Piece} {v : Json}
    (hkey : textOf? key = some name.toList) :
    (Shape.either leftKey f rightKey g).read (.object [(key, v)] true) =
      if name = leftKey then .inl <$> f.read v
      else if name = rightKey then .inr <$> g.read v
      else .error .mismatch := by
  show (readPieces key >>= _) = _
  rw [readPieces_eq_ok_iff.2 hkey, ok_bind, String.ofList_toList]
  simp only [List.isEmpty_nil, Bool.and_self, if_true]
  split
  · cases f.read v <;> rfl
  · split
    · cases g.read v <;> rfl
    · rfl

/-- A value under one of two keys. -/
theorem Respects.either {l' : Layout} {leftKey rightKey : String} (hne : leftKey ≠ rightKey)
    (hf : f.Respects l) (hg : g.Respects l') :
    (either leftKey f rightKey g).Respects (.variant [(leftKey, l), (rightKey, l')]) := by
  intro v v' hv
  generalize hl : Layout.variant [(leftKey, l), (rightKey, l')] = layout at hv
  induction hv with
  | refl => exact fun b => Iff.rfl
  | trans _ _ ih ih' => exact fun b => (ih hl b).trans (ih' hl b)
  | permute | extend | member | item => cases hl
  | @content cases key name l v v' hkey hmem hv' =>
    cases hl
    intro b
    rw [read_either hkey, read_either hkey]
    simp only [List.mem_cons, Prod.mk.injEq, List.not_mem_nil, or_false] at hmem
    obtain ⟨rfl, rfl⟩ | ⟨rfl, rfl⟩ := hmem
    · rw [if_pos rfl, if_pos rfl, map_eq_ok_iff, map_eq_ok_iff]
      exact exists_congr fun a => and_congr_left fun _ => hf v v' hv' a
    · rw [if_neg hne.symm, if_neg hne.symm, if_pos rfl, if_pos rfl, map_eq_ok_iff, map_eq_ok_iff]
      exact exists_congr fun a => and_congr_left fun _ => hg v v' hv' a

end Respects

end Shape

/-! ### Records respect layouts -/

section Records

variable {fs : List Field} {fields : List (String × Layout)}

/-- The field stands under the name alone, and it respects the layout of the name. -/
def Field.Respects (f : Field) (named : String × Layout) : Prop :=
  f.keys = [named.1] ∧ f.shape.Respects named.2

theorem Field.holds_iff {f : Field} {name name' : String} {key : List Piece} {v : Json}
    (hkeys : f.keys = [name']) (hkey : textOf? key = some name.toList) :
    f.holds (key, v) = true ↔ name = name' := by
  rw [Field.holds, hkey, hkeys, Option.any_some, String.ofList_toList, List.contains_iff_mem,
    List.mem_singleton]

/-- A field is known by any of its keys. -/
theorem Field.eq_of_mem_keys (hapart : fs.Pairwise Field.Apart) {f g : Field} (hf : f ∈ fs)
    (hg : g ∈ fs) {key : String} (hkf : key ∈ f.keys) (hkg : key ∈ g.keys) : f = g := by
  by_contra hne
  have : Std.Symm Field.Apart := ⟨fun _ _ h key hg hf => h key hf hg⟩
  exact hapart.forall hf hg hne key hkf hkg

theorem readItems_congr (h : List.Forall₂ Field.Respects fs fields) {before after : List Json}
    {name : String} {l : Layout} {v v' : Json} (hnamed : fields[before.length]? = some (name, l))
    (hv : l.Rearranges v v') (values : Values fs) :
    readItems fs (before ++ v :: after) true = .ok values ↔
      readItems fs (before ++ v' :: after) true = .ok values := by
  induction before generalizing fs fields with
  | nil =>
    cases h with
    | nil => cases hnamed
    | @cons f named fs fields hf _ =>
      cases hnamed
      show (f.shape.read v >>= _) = _ ↔ (f.shape.read v' >>= _) = _
      rw [bind_eq_ok_iff, bind_eq_ok_iff]
      exact exists_congr fun a => and_congr_left fun _ => hf.2 v v' hv a
  | cons b before ih =>
    cases h with
    | nil => cases hnamed
    | @cons f named fs fields hf hfs =>
      show (f.shape.read b >>= _) = _ ↔ (f.shape.read b >>= _) = _
      rw [bind_eq_ok_iff, bind_eq_ok_iff]
      refine exists_congr fun a => and_congr_right fun _ => ?_
      rw [bind_eq_ok_iff, bind_eq_ok_iff]
      exact exists_congr fun rest => and_congr_left fun _ => ih hfs hnamed rest

/-- **A record respects the layout of its fields.** -/
theorem Shape.respects_record (hapart : fs.Pairwise Field.Apart)
    (h : List.Forall₂ Field.Respects fs fields) : (Shape.record fs).Respects (.record fields) := by
  intro v v' hv
  generalize hl : Layout.record fields = layout at hv
  induction hv with
  | refl => exact fun values => Iff.rfl
  | trans _ _ ih ih' => exact fun values => (ih hl values).trans (ih' hl values)
  | permute hperm =>
    intro values
    rw [Shape.read_object_eq_ok_iff hapart, Shape.read_object_eq_ok_iff hapart]
    exact and_congr (forall_congr' fun m => imp_congr_left hperm.mem_iff)
      (Values.areRead_congr fun f _ a => Field.gives_of_perm hperm)
  | @extend fields' members key name v hkey hname =>
    cases hl
    intro values
    rw [Shape.read_object_eq_ok_iff hapart, Shape.read_object_eq_ok_iff hapart]
    refine and_congr ?_ (Values.areRead_congr fun f hf a => Field.gives_congr ?_)
    · rw [List.forall_mem_cons, hkey]
      exact (and_iff_right rfl).symm
    · obtain ⟨named, hnamed, hkeys, -⟩ := Forall₂.exists_left h hf
      rw [List.filter_cons_of_neg]
      rw [Field.holds_iff hkeys hkey]
      rintro rfl
      exact hname (List.mem_map_of_mem hnamed)
  | @member fields' members key name l v v' hkey hnamed hv' =>
    cases hl
    intro values
    rw [Shape.read_object_eq_ok_iff hapart, Shape.read_object_eq_ok_iff hapart]
    refine and_congr ?_ (Values.areRead_congr fun f hf a => Field.gives_cons_congr fun hholds => ?_)
    · rw [List.forall_mem_cons, List.forall_mem_cons]
    · -- the field that has the key is the one that respects the layout of the name
      obtain ⟨g, hg, hgkeys, hrespects⟩ := Forall₂.exists_right h hnamed
      obtain ⟨named, -, hkeys, -⟩ := Forall₂.exists_left h hf
      obtain rfl := (Field.holds_iff hkeys hkey).1 hholds
      obtain rfl := Field.eq_of_mem_keys hapart hf hg (hkeys ▸ List.mem_singleton_self _)
        (hgkeys ▸ List.mem_singleton_self _)
      exact hrespects v v' hv'
  | item hnamed hv' =>
    cases hl
    exact readItems_congr h hnamed hv'
  | content => cases hl

end Records

end DelegatedVoting.Json
