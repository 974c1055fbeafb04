import DelegatedVoting.Ballot.Book
import DelegatedVoting.Proofs.Maps
import Mathlib.Data.List.Induction
import Mathlib.Data.List.TakeWhile

/-!
# What a book shows

A trail holds the records of one participant, in the order of their numbers, and the action that
counts is that of the last record. This is so in whatever order the records come, and whether or not
numbers repeat: of records with the same number, the one that came first stands last.

* `Book.perm_enter`, `pairwise_enter`, `getLast?_enter`: a record enters a trail;
* `Book.current?_apply`, `trail_apply`: a record enters a book;
* `Book.Ordered`: the trails are in order, and their last records count;
* `Book.ordered_ofRecords`, `perm_trail_ofRecords`: the book of any records;
* `Book.trail_ofRecords`, `Ordered.current?_eq_some_iff`: records in the order of their numbers.
-/

namespace DelegatedVoting.Ballot.Book

variable {b : Book} {r r' : Record} {trail : List Record} {v : ParticipantId} {a : Action}

/-! ### A record enters a trail -/

theorem perm_enter (r : Record) (trail : List Record) : (enter r trail).Perm (r :: trail) := by
  have hsplit := List.takeWhile_append_dropWhile (p := (·.action.seq < r.action.seq)) (l := trail)
  refine List.perm_middle.trans ?_
  rw [hsplit]

@[simp] theorem mem_enter : r' ∈ enter r trail ↔ r' = r ∨ r' ∈ trail := by
  rw [(perm_enter r trail).mem_iff, List.mem_cons]

/-- A trail in the order of its numbers. -/
abbrev Ascends (trail : List Record) : Prop :=
  trail.Pairwise fun r r' => r.action.seq ≤ r'.action.seq

/-- The records behind the place of a new one do not have smaller numbers. -/
theorem le_of_mem_dropWhile (h : Ascends trail)
    (hmem : r' ∈ trail.dropWhile (·.action.seq < r.action.seq)) :
    r.action.seq ≤ r'.action.seq := by
  induction trail with
  | nil => cases hmem
  | cons first trail ih =>
    obtain ⟨hfirst, htrail⟩ := List.pairwise_cons.1 h
    rw [List.dropWhile_cons] at hmem
    split at hmem
    · exact ih htrail hmem
    · rename_i hge
      have hle : r.action.seq ≤ first.action.seq := by simpa using hge
      rcases List.mem_cons.1 hmem with rfl | hmem
      · exact hle
      · exact UInt64.le_trans hle (hfirst _ hmem)

theorem pairwise_enter (h : Ascends trail) (r : Record) : Ascends (enter r trail) := by
  have hbefore : ∀ r' ∈ trail.takeWhile (·.action.seq < r.action.seq),
      r'.action.seq ≤ r.action.seq := fun r' hr' => by
    have := List.mem_takeWhile_imp hr'
    exact UInt64.le_of_lt (by simpa using this)
  have hbehind : ∀ r' ∈ trail.dropWhile (·.action.seq < r.action.seq),
      r.action.seq ≤ r'.action.seq := fun r' hr' => le_of_mem_dropWhile h hr'
  refine List.pairwise_append.2 ⟨h.sublist (List.takeWhile_sublist _),
    List.pairwise_cons.2 ⟨hbehind, h.sublist (List.dropWhile_sublist _)⟩, fun x hx y hy => ?_⟩
  rcases List.mem_cons.1 hy with rfl | hy
  · exact hbefore x hx
  · exact UInt64.le_trans (hbefore x hx) (hbehind y hy)

/-- A record with a larger number than all the others stands last. -/
theorem enter_of_lt (h : ∀ r' ∈ trail, r'.action.seq < r.action.seq) :
    enter r trail = trail ++ [r] := by
  have hall : ∀ r' ∈ trail, decide (r'.action.seq < r.action.seq) = true :=
    fun r' hr' => decide_eq_true (h r' hr')
  rw [enter, List.takeWhile_eq_self_iff.2 hall, List.dropWhile_eq_nil_iff.2 hall]

/-- The last record stays the last one unless its number is smaller than that of the new one. -/
theorem getLast?_enter (h : Ascends trail) (r : Record) : (enter r trail).getLast? =
    match trail.getLast? with
    | none => some r
    | some last => if last.action.seq < r.action.seq then some r else some last := by
  have hsplit := List.takeWhile_append_dropWhile (p := (·.action.seq < r.action.seq)) (l := trail)
  rw [enter]
  rcases List.eq_nil_or_concat (trail.dropWhile (·.action.seq < r.action.seq)) with hnil | hlast
  · -- the new record stands last, so its number is larger than all the others
    have hlt : ∀ r' ∈ trail, r'.action.seq < r.action.seq := by
      simpa [List.dropWhile_eq_nil_iff] using hnil
    rw [hnil, List.getLast?_append]
    cases hlast : trail.getLast? with
    | none => rfl
    | some last => simp [hlt last (List.mem_of_getLast? hlast)]
  · -- the last record stays, and its number is not smaller
    obtain ⟨rest, last, hlast⟩ := hlast
    have hle : r.action.seq ≤ last.action.seq := le_of_mem_dropWhile h (by rw [hlast]; simp)
    have hold : trail.getLast? = some last := by
      rw [← hsplit, hlast, List.concat_eq_append, List.getLast?_append]
      simp
    have hnew : (r :: rest.concat last).getLast? = some last := by
      rw [List.concat_eq_append, ← List.cons_append, List.getLast?_append]
      simp
    rw [hlast, List.getLast?_append, hnew, hold]
    simp [UInt64.not_lt.2 hle]

/-- The last action prevails over a new one unless its number is smaller. -/
theorem map_getLast?_enter (h : Ascends trail) (r : Record) :
    (enter r trail).getLast?.map Record.action =
      some (prevailing (trail.getLast?.map Record.action) r.action) := by
  rw [getLast?_enter h]
  cases trail.getLast? with
  | none => rfl
  | some last =>
    simp only [prevailing, Option.map_some]
    split <;> rfl

/-! ### A record enters a book -/

theorem trail_apply (b : Book) (r : Record) (v : ParticipantId) :
    (b.apply r).trail v = if r.action.voter = v then enter r (b.trail v) else b.trail v := by
  simp only [trail, apply, Std.ExtTreeMap.getD_eq_getD_getElem?, Maps.getElem?_insert]
  split
  · rename_i hv
    subst hv
    rfl
  · rfl

theorem current?_apply (b : Book) (r : Record) (v : ParticipantId) :
    (b.apply r).current? v =
      if r.action.voter = v then some (prevailing (b.current? v) r.action) else b.current? v := by
  simp only [current?, apply, Maps.getElem?_insert]
  split
  · rename_i hv
    subst hv
    rfl
  · rfl

@[simp] theorem trail_empty (v : ParticipantId) : empty.trail v = [] := by simp [empty, trail]

@[simp] theorem current?_empty (v : ParticipantId) : empty.current? v = none := by
  simp [empty, current?]

/-- The trails are in order, and their last records count. -/
structure Ordered (b : Book) : Prop where
  ascends : ∀ v, Ascends (b.trail v)
  current?_eq : ∀ v, b.current? v = (b.trail v).getLast?.map Record.action

theorem ordered_empty : Ordered empty where
  ascends v := by simp
  current?_eq v := by simp

theorem Ordered.apply (h : b.Ordered) (r : Record) : (b.apply r).Ordered where
  ascends v := by
    rw [trail_apply]
    split
    · exact pairwise_enter (h.ascends v) r
    · exact h.ascends v
  current?_eq v := by
    rw [trail_apply, current?_apply]
    split
    · rw [map_getLast?_enter (h.ascends v), h.current?_eq]
    · exact h.current?_eq v

/-! ### The book of any records -/

@[simp] theorem ofRecords_nil : ofRecords [] = empty := rfl

@[simp] theorem ofRecords_append (records : List Record) (r : Record) :
    ofRecords (records ++ [r]) = (ofRecords records).apply r := by simp [ofRecords]

/-- **The trails of a book are in order,** and their last records count. -/
theorem ordered_ofRecords (records : List Record) : (ofRecords records).Ordered := by
  induction records using List.reverseRecOn with
  | nil => exact ordered_empty
  | append_singleton records last ih => simpa using ih.apply last

/-- **A trail holds the records of a participant,** each as often as it comes. -/
theorem perm_trail_ofRecords (records : List Record) (v : ParticipantId) :
    ((ofRecords records).trail v).Perm (records.filter fun r => r.action.voter = v) := by
  induction records using List.reverseRecOn with
  | nil => simp
  | append_singleton records last ih =>
    rw [ofRecords_append, trail_apply, List.filter_append]
    by_cases hv : last.action.voter = v
    · rw [if_pos hv, List.filter_singleton, decide_eq_true hv]
      exact (perm_enter _ _).trans ((ih.cons last).trans (List.perm_append_singleton _ _).symm)
    · simpa [hv] using ih

theorem mem_trail_ofRecords {records : List Record} :
    r ∈ (ofRecords records).trail v ↔ r ∈ records ∧ r.action.voter = v := by
  rw [(perm_trail_ofRecords records v).mem_iff, List.mem_filter, decide_eq_true_eq]

/-- Records that come in the order of their numbers stand in a trail as they come. -/
theorem trail_ofRecords {records : List Record}
    (h : records.Pairwise fun r r' => r.action.seq < r'.action.seq) (v : ParticipantId) :
    (ofRecords records).trail v = records.filter fun r => r.action.voter = v := by
  induction records using List.reverseRecOn with
  | nil => simp
  | append_singleton records last ih =>
    obtain ⟨h, -, hlast⟩ := List.pairwise_append.1 h
    rw [ofRecords_append, trail_apply, ih h, List.filter_append]
    by_cases hv : last.action.voter = v
    · rw [if_pos hv, enter_of_lt fun r hr => hlast r (List.mem_of_mem_filter hr) last (by simp)]
      simp [hv]
    · simp [hv]

/-- The action that counts has the largest number. -/
theorem Ordered.le_of_mem (h : b.Ordered) (ha : b.current? v = some a) (hr : r ∈ b.trail v) :
    r.action.seq ≤ a.seq := by
  rw [h.current?_eq] at ha
  obtain ⟨last, hlast, rfl⟩ := Option.map_eq_some_iff.1 ha
  obtain ⟨front, hfront⟩ := List.getLast?_eq_some_iff.1 hlast
  have hasc := h.ascends v
  rw [hfront] at hasc hr
  rcases List.mem_append.1 hr with hr | hr
  · exact (List.pairwise_append.1 hasc).2.2 r hr last (by simp)
  · rw [List.mem_singleton.1 hr]
    exact UInt64.le_refl _

/-- Records whose numbers ascend are told by their numbers. -/
theorem eq_of_seq_eq (h : trail.Pairwise fun r r' => r.action.seq < r'.action.seq)
    (hr : r ∈ trail) (hr' : r' ∈ trail) (hseq : r.action.seq = r'.action.seq) : r = r' := by
  have hnodup : (trail.map fun r => r.action.seq).Nodup :=
    List.pairwise_map.2 (h.imp fun hlt => UInt64.ne_of_lt hlt)
  exact List.inj_on_of_nodup_map hnodup hr hr' hseq

/-- **The action that counts is the one with the largest number,** if numbers do not repeat. -/
theorem Ordered.current?_eq_some_iff (h : b.Ordered)
    (hlt : (b.trail v).Pairwise fun r r' => r.action.seq < r'.action.seq) :
    b.current? v = some a ↔
      (∃ r ∈ b.trail v, r.action = a) ∧ ∀ r ∈ b.trail v, r.action.seq ≤ a.seq := by
  constructor
  · intro ha
    refine ⟨?_, fun r hr => h.le_of_mem ha hr⟩
    rw [h.current?_eq] at ha
    obtain ⟨last, hlast, rfl⟩ := Option.map_eq_some_iff.1 ha
    exact ⟨last, List.mem_of_getLast? hlast, rfl⟩
  · rintro ⟨⟨r, hr, rfl⟩, hmax⟩
    obtain ⟨last, hlast⟩ : ∃ last, (b.trail v).getLast? = some last :=
      Option.isSome_iff_exists.1 (List.getLast?_isSome.2 (List.ne_nil_of_mem hr))
    have hmem := List.mem_of_getLast? hlast
    have hcurrent : b.current? v = some last.action := by rw [h.current?_eq, hlast]; rfl
    have hseq := UInt64.le_antisymm (hmax last hmem) (h.le_of_mem hcurrent hr)
    rw [hcurrent, eq_of_seq_eq hlt hmem hr hseq]

end DelegatedVoting.Ballot.Book
