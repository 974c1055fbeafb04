import DelegatedVoting.Toml.Document

/-!
# Numbers of TOML documents

A whole number is read only where it fits 64 bits, so the values of a table hold no other.

* `Item.Fits`, `Table.Fits`: no number among the own values of a table is out of bounds;
* `Scalar.integer?_le`, `Value.fits_of_read?`: what is read as a value fits;
* `Table.Fits.assign`, `Table.Fits.define`, `Table.Fits.append`: a table that fits is kept fitting
  however it grows;
* `Document.fits_of_read?`: the table of a document fits.
-/

namespace DelegatedVoting.Toml

/-! ### Values -/

/-- A value that is no number out of bounds. -/
def Item.Fits : Item → Prop
  | .integer n => n ≤ Int64.maxValue.toInt
  | _ => True

/-- A table without a number out of bounds among its own values. -/
def Table.Fits (t : Table) : Prop := ∀ e ∈ t.entries, e.2.Fits

theorem Scalar.integer?_le {word : List Char} {n : Int} (h : integer? word = some n) :
    n ≤ Int64.maxValue.toInt := by
  rw [integer?, Option.bind_eq_some_iff] at h
  obtain ⟨m, -, h⟩ := h
  split at h
  · rename_i hm
    exact Option.some.inj h ▸ hm.2
  · cases h

theorem Scalar.fits_of_ofWord? {word : List Char} {v : Item} (h : ofWord? word = some v) :
    v.Fits := by
  unfold ofWord? at h
  split at h
  · cases h
    trivial
  split at h
  · rename_i n hn
    cases h
    exact integer?_le hn
  split at h
  · cases h
    trivial
  split at h
  · cases h
    trivial
  · cases h

theorem Scalar.fits_of_read? {s rest : List Char} {v : Item} (h : read? s = some (v, rest)) :
    v.Fits := by
  have hword {word after : List Char}
      (h : (ofWord? word).map (fun v => (v, after)) = some (v, rest)) : v.Fits := by
    obtain ⟨w, hw, heq⟩ := Option.map_eq_some_iff.1 h
    cases heq
    exact fits_of_ofWord? hw
  simp only [read?] at h
  split at h
  · split at h
    · split at h
      · cases h
        trivial
      · cases h
    · exact hword h
  · exact hword h

/-- A number that is read as a value fits. -/
theorem Value.fits_of_read? {s rest : List Char} {v : Item} (h : read? s = some (v, rest)) :
    v.Fits := by
  have hmap {α : Type} {f : α → Item} {r : Option (α × List Char)} (hf : ∀ a, (f a).Fits)
      (h : r.map (fun r => (f r.1, r.2)) = some (v, rest)) : v.Fits := by
    obtain ⟨a, -, heq⟩ := Option.map_eq_some_iff.1 h
    cases heq
    exact hf a.1
  unfold read? maxDepth readTo at h
  split at h
  · exact hmap (f := fun cs => .text (String.ofList cs)) (fun _ => trivial) h
  · exact hmap (f := fun cs => .text (String.ofList cs)) (fun _ => trivial) h
  · exact hmap (f := .array) (fun _ => trivial) h
  · split at h
    · cases h
      trivial
    · exact hmap (f := .table) (fun _ => trivial) h
  · exact Scalar.fits_of_read? h

theorem Line.fits_of_read? {s rest : List Char} {path : KeyPath} {v : Item}
    (h : read? s = some (.assignment path v, rest)) : v.Fits := by
  unfold read? at h
  split at h
  · simp only [Option.bind_eq_bind, Option.bind_eq_some_iff] at h
    obtain ⟨_, -, h⟩ := h
    split at h
    · obtain ⟨_, -, heq⟩ := Option.bind_eq_some_iff.1 h
      cases heq
    · cases h
  · simp only [Option.bind_eq_bind, Option.bind_eq_some_iff] at h
    obtain ⟨_, -, h⟩ := h
    split at h
    · obtain ⟨_, -, heq⟩ := Option.bind_eq_some_iff.1 h
      cases heq
    · cases h
  · simp only [Option.bind_eq_bind, Option.bind_eq_some_iff] at h
    obtain ⟨_, -, h⟩ := h
    split at h
    · simp only [Option.bind_eq_some_iff] at h
      obtain ⟨⟨w, after⟩, hw, _, -, heq⟩ := h
      cases heq
      exact Value.fits_of_read? hw
    · cases h

/-! ### Tables -/

namespace Table

theorem mem_putEntry {key : String} {v : Item} {entries : List (String × Item)}
    {e : String × Item} (h : e ∈ putEntry key v entries) : e = (key, v) ∨ e ∈ entries := by
  induction entries with
  | nil => exact .inl (List.mem_singleton.1 h)
  | cons d entries ih =>
    rw [putEntry] at h
    split at h
    · rcases List.mem_cons.1 h with h | h
      · exact .inl h
      · exact .inr (List.mem_cons_of_mem d h)
    · rcases List.mem_cons.1 h with rfl | h
      · exact .inr List.mem_cons_self
      · exact (ih h).imp_right (List.mem_cons_of_mem d)

theorem Fits.put {t : Table} (ht : t.Fits) (key : String) {v : Item} (hv : v.Fits) :
    (t.put key v).Fits := by
  intro e he
  rcases mem_putEntry he with rfl | he
  · exact hv
  · exact ht e he

theorem Fits.reach {f : Table → Option Table} {keys : List String} {t t' : Table}
    (hf : ∀ u, f t = some u → u.Fits) (ht : t.Fits) (h : t.reach f keys = some t') : t'.Fits := by
  unfold Table.reach at h
  split at h
  · exact hf t' h
  split at h
  · obtain ⟨_, -, rfl⟩ := Option.map_eq_some_iff.1 h
    exact ht.put _ trivial
  · split at h
    · cases h
    · obtain ⟨_, -, rfl⟩ := Option.map_eq_some_iff.1 h
      exact ht.put _ trivial
  · obtain ⟨_, -, rfl⟩ := Option.map_eq_some_iff.1 h
    exact ht.put _ trivial
  · cases h

theorem Fits.assign {path : KeyPath} {t t' : Table} {v : Item} (ht : t.Fits) (hv : v.Fits)
    (h : t.assign path v = some t') : t'.Fits := by
  refine ht.reach (fun u hu => ?_) h
  rw [add] at hu
  split at hu
  · cases hu
  split at hu
  · cases hu
  · cases hu
    exact ht.put path.name hv

theorem Fits.enter {f : Option Item → Option Item} (hf : ∀ o v, f o = some v → v.Fits)
    {name : String} {keys : List String} {t t' : Table} (ht : t.Fits)
    (h : t.enter f name keys = some t') : t'.Fits := by
  unfold Table.enter at h
  split at h
  · obtain ⟨v, hv, rfl⟩ := Option.map_eq_some_iff.1 h
    exact ht.put name (hf _ v hv)
  split at h
  · obtain ⟨_, -, rfl⟩ := Option.map_eq_some_iff.1 h
    exact ht.put _ trivial
  · split at h
    · cases h
    · obtain ⟨_, -, rfl⟩ := Option.map_eq_some_iff.1 h
      exact ht.put _ trivial
  · obtain ⟨_, -, rfl⟩ := Option.map_eq_some_iff.1 h
    exact ht.put _ trivial
  · cases h

theorem Fits.define {path : KeyPath} {fill : Table → Option Table} {t t' : Table} (ht : t.Fits)
    (h : t.define path fill = some t') : t'.Fits := by
  refine ht.enter (fun o v hv => ?_) h
  split at hv
  · obtain ⟨_, -, rfl⟩ := Option.map_eq_some_iff.1 hv
    trivial
  · obtain ⟨_, -, rfl⟩ := Option.map_eq_some_iff.1 hv
    trivial
  · cases hv

theorem Fits.append {path : KeyPath} {fill : Table → Option Table} {t t' : Table} (ht : t.Fits)
    (h : t.append path fill = some t') : t'.Fits := by
  refine ht.enter (fun o v hv => ?_) h
  split at hv
  · obtain ⟨_, -, rfl⟩ := Option.map_eq_some_iff.1 hv
    trivial
  · obtain ⟨_, -, rfl⟩ := Option.map_eq_some_iff.1 hv
    trivial
  · cases hv

end Table

/-! ### Documents -/

namespace Document

theorem fits_of_linesFrom {fuel : Nat} {s : List Char} {lines : List Line}
    (h : linesFrom fuel s = some lines) {path : KeyPath} {v : Item}
    (hmem : .assignment path v ∈ lines) : v.Fits := by
  induction fuel generalizing s lines with
  | zero => cases h
  | succ fuel ih =>
    rw [linesFrom] at h
    split at h
    · cases h
      cases hmem
    · obtain ⟨rest, -, h⟩ := Option.bind_eq_some_iff.1 h
      exact ih h hmem
    · obtain ⟨rest, -, h⟩ := Option.bind_eq_some_iff.1 h
      exact ih h hmem
    · obtain ⟨rest, -, h⟩ := Option.bind_eq_some_iff.1 h
      exact ih h hmem
    · simp only [Option.bind_eq_bind, Option.bind_eq_some_iff] at h
      obtain ⟨⟨line, rest⟩, hline, later, hlater, heq⟩ := h
      cases heq
      rcases List.mem_cons.1 hmem with rfl | hmem
      · exact Line.fits_of_read? hline
      · exact ih hlater hmem

theorem fits_of_fill {values : List (KeyPath × Item)} (hv : ∀ e ∈ values, e.2.Fits)
    {t t' : Table} (ht : t.Fits) (h : fill values t = some t') : t'.Fits := by
  induction values generalizing t with
  | nil =>
    cases h
    exact ht
  | cons e values ih =>
    simp only [List.mem_cons, forall_eq_or_imp] at hv
    rw [fill, List.foldlM_cons] at h
    obtain ⟨u, hu, h⟩ := Option.bind_eq_some_iff.1 h
    exact ih hv.2 (ht.assign hv.1 hu) h

theorem fits_of_tablesFrom {lines : List Line} {values : List (KeyPath × Item)} {t : Table}
    (hl : ∀ path v, .assignment path v ∈ lines → v.Fits) (hv : ∀ e ∈ values, e.2.Fits)
    (h : tablesFrom lines values = some t) : t.Fits := by
  induction lines generalizing values t with
  | nil => exact fits_of_fill hv (fun _ he => absurd he List.not_mem_nil) h
  | cons line lines ih =>
    have hnone : ∀ e ∈ ([] : List (KeyPath × Item)), e.2.Fits := fun _ he =>
      absurd he List.not_mem_nil
    have hl' : ∀ path v, .assignment path v ∈ lines → v.Fits := fun path v hmem =>
      hl path v (List.mem_cons_of_mem line hmem)
    cases line with
    | assignment path v =>
      have hfirst := hl path v List.mem_cons_self
      rw [tablesFrom] at h
      refine ih hl' (fun e he => ?_) h
      rcases List.mem_cons.1 he with rfl | he
      · exact hfirst
      · exact hv e he
    | header path =>
      rw [tablesFrom] at h
      obtain ⟨u, hu, h⟩ := Option.bind_eq_some_iff.1 h
      exact (ih hl' hnone hu).define h
    | element path =>
      rw [tablesFrom] at h
      obtain ⟨u, hu, h⟩ := Option.bind_eq_some_iff.1 h
      exact (ih hl' hnone hu).append h

/-- A number that is read from a text fits. -/
theorem fits_of_read? {text : String} {t : Table} (h : read? text = some t) : t.Fits := by
  obtain ⟨lines, hlines, h⟩ := Option.bind_eq_some_iff.1 h
  refine fits_of_tablesFrom (fun path v hmem => ?_) (fun _ he => absurd he List.not_mem_nil) h
  exact fits_of_linesFrom hlines (List.mem_reverse.1 hmem)

end Document

end DelegatedVoting.Toml
