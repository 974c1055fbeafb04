import DelegatedVoting.Node.DataFolder
import DelegatedVoting.Proofs.Results

/-!
# Tables in files

Tables stand where they have been put, and nothing that is done at other places moves them. To make
folders puts none, and to open the tables in a data folder puts them there as they are then.

* `Files.tables?`: the tables that stand at a place;
* `Files.tables?_put`, `tables?_makeFolders`: what is done elsewhere leaves them alone;
* `DataFolder.Opens`, `DataFolder.openTables_spec`: what is there after the tables of a data folder
  have been opened.
-/

namespace DelegatedVoting

/-- The tables in an entry, if it has tables. -/
def Entry.tables? : Entry → Option Tables
  | .tables t => some t
  | _ => none

namespace Files

variable {fs : Files} {place other : List String} {e : Entry}

/-- The tables that stand at a place. -/
def tables? (place : List String) (fs : Files) : Option Tables := (fs.get? place).bind Entry.tables?

/-- Paths start at the place. -/
def IsStart (place : List String) : Prop := place = [] ∨ place = [""]

instance (place : List String) : Decidable (IsStart place) := inferInstanceAs (Decidable (_ ∨ _))

/-- Where paths do not start, the tables are those of the entry at the place. -/
theorem tables?_eq (fs : Files) (place : List String) : fs.tables? place =
    if IsStart place then none else (fs.entries.lookup place).bind Entry.tables? := by
  unfold tables? get?
  by_cases hstart : place = [] ∨ place = [""]
  · rw [if_pos hstart, if_pos (show IsStart place from hstart)]
    rfl
  · rw [if_neg hstart, if_neg (show ¬ IsStart place from hstart)]
    cases fs.entries.lookup place with
    | some e => rfl
    | none => cases fs.entries.any fun e => place.isPrefixOf e.1 <;> rfl

theorem lookup_filter_ne {α β : Type} [BEq α] [LawfulBEq α] [DecidableEq α] {k k' : α}
    (h : k' ≠ k) (l : List (α × β)) : (l.filter fun f => f.1 ≠ k).lookup k' = l.lookup k' := by
  induction l with
  | nil => rfl
  | cons e l ih =>
    by_cases he : e.1 = k
    · have hne : (k' == e.1) = false := beq_false_of_ne (he ▸ h)
      rw [List.filter_cons_of_neg (by simp [he]), ih, List.lookup_cons, hne]
    · rw [List.filter_cons_of_pos (by simp [he]), List.lookup_cons, List.lookup_cons, ih]

/-- What is put at a place is there, and the tables at other places are left alone. -/
theorem tables?_put (fs : Files) (place other : List String) (e : Entry) :
    (fs.put place e).tables? other =
      if place = other then if IsStart place then none else e.tables? else fs.tables? other := by
  rw [tables?_eq, tables?_eq, put, List.lookup_cons]
  by_cases h : place = other
  · subst h
    simp
  · have hne : (other == place) = false := beq_false_of_ne (Ne.symm h)
    rw [if_neg h, ← lookup_filter_ne (Ne.symm h) fs.entries]
    simp only [hne]

/-- A folder that is made where nothing is hides no tables. -/
theorem tables?_put_folder (h : fs.get? place = none) :
    (fs.put place .folder).tables? other = fs.tables? other := by
  rw [tables?_put]
  split
  · rename_i hplace
    rw [← hplace, tables?, h]
    split <;> rfl
  · rfl

theorem tables?_makeFrom (start : List String) (isNew : Bool) (names : List String) (fs : Files) :
    (makeFrom start isNew names fs).2.tables? other = fs.tables? other := by
  induction names generalizing start isNew fs with
  | nil => rfl
  | cons name names ih =>
    rw [makeFrom]
    split
    · exact ih _ _ _
    split
    · exact ih _ _ _
    split
    · rfl
    dsimp only
    split
    · rw [ih, tables?_put_folder ‹_›]
    · exact ih _ _ _
    · rfl

/-- Making folders leaves all the tables alone. -/
theorem tables?_makeFolders (path : String) (fs : Files) (other : List String) :
    (fs.makeFolders path).2.tables? other = fs.tables? other := by
  unfold makeFolders
  split
  · rfl
  · rfl
  · dsimp only
    split
    · exact tables?_makeFrom _ _ _ _
    · rfl
    · exact tables?_makeFrom _ _ _ _
    · rfl

end Files

namespace DataFolder

open Files

variable {fs : Files} {place : List String} {t : Tables}

/-- The place is that of the file in a data folder that holds the tables. -/
def IsFile (place : List String) : Prop := ∃ folder, place = folder ++ [fileName]

theorem IsFile.not_isStart (h : IsFile place) : ¬ IsStart place := by
  obtain ⟨folder, rfl⟩ := h
  rintro (h | h)
  · exact absurd h (by simp)
  · exact absurd (congrArg List.getLast? h) (by simp [fileName])

theorem IsFile.ne_lock (h : IsFile place) (folder : List String) :
    folder ++ [lockName] ≠ place := by
  obtain ⟨folder', rfl⟩ := h
  intro h
  exact absurd (congrArg List.getLast? h) (by simp [fileName, lockName])

/-- The tables in a file as they are after they have been opened. They may be new ones. -/
def openedAt (file : List String) (fs : Files) : Except TableError Tables :=
  ((fs.tables? file).getD .empty).opened

/-- What is there after the tables in a data folder have been opened, or could not be. -/
inductive Opens (fs : Files) : Except TableError (List String × Tables) × Files → Prop
  | failed (e : TableError) (fs' : Files)
      (htables : ∀ place, IsFile place → fs'.tables? place = fs.tables? place) :
    Opens fs (.error e, fs')
  | opened (file : List String) (t : Tables) (fs' : Files) (hfile : IsFile file)
      (hopened : openedAt file fs = .ok t) (htables : ∀ place, IsFile place →
        fs'.tables? place = if file = place then some t else fs.tables? place) :
    Opens fs (.ok (file, t), fs')

/-- The tables that are read of an entry are its own, or new ones. -/
theorem tablesIn_eq_ok {e : Option Entry} (h : tablesIn e = .ok t) :
    t = (e.bind Entry.tables?).getD .empty := by
  unfold tablesIn at h
  split at h
  · exact (Except.ok.inj h).symm
  · exact (Except.ok.inj h).symm
  · split at h
    · exact (Except.ok.inj h).symm
    · cases h
  · cases h

theorem openedAt_of_tablesAt {mapSize : Nat} (h : tablesAt place mapSize fs = .ok t) :
    openedAt (place ++ [fileName]) fs = .ok t := by
  -- the size is checked twice, and between the checks the lock is looked for and the file is read
  have hread : ∃ found, tablesIn (fs.get? (place ++ [fileName])) = .ok found ∧
      found.opened = .ok t := by
    unfold tablesAt at h
    dsimp only at h
    by_cases hsize : mapSize % pageSize ≠ 0
    · rw [if_pos hsize] at h
      cases h
    · rw [if_neg hsize] at h
      split at h
      · cases h
      · obtain ⟨found, hfound, h⟩ := bind_eq_ok_iff.1 h
        refine ⟨found, hfound, ?_⟩
        split at h
        · cases h
        · exact h
  obtain ⟨found, hfound, hopened⟩ := hread
  rwa [tablesIn_eq_ok hfound] at hopened

/-- **What is there after the tables in a data folder have been opened.** -/
theorem openTables_spec (path : String) (mapSize : Nat) (fs : Files) :
    Opens fs (openTables path mapSize fs) := by
  have hmade := tables?_makeFolders path fs
  unfold openTables
  generalize fs.makeFolders path = folders at hmade ⊢
  obtain ⟨made, fs'⟩ := folders
  dsimp only at hmade ⊢
  split
  · exact .failed _ _ fun place _ => hmade place
  · rename_i hresult
    obtain ⟨-, -, hresult⟩ := bind_eq_ok_iff.1 hresult
    obtain ⟨⟨folder, _⟩, -, hresult⟩ := bind_eq_ok_iff.1 hresult
    obtain ⟨t, ht, hresult⟩ := bind_eq_ok_iff.1 hresult
    cases hresult
    have hopened := openedAt_of_tablesAt ht
    rw [openedAt, hmade] at hopened
    have hfile : IsFile (folder ++ [fileName]) := ⟨folder, rfl⟩
    refine .opened _ _ _ hfile hopened fun other hother => ?_
    rw [tables?_put, tables?_put, if_neg hfile.not_isStart, if_neg (hother.ne_lock folder), hmade]
    rfl

end DataFolder

end DelegatedVoting
