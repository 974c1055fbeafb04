import DelegatedVoting.Proofs.Mirror
import DelegatedVoting.Proofs.Resolution

/-!
# Records that arrive in any order

A book can be told from the list of its records. Each trail holds the records of its participant in
the order of their numbers, whatever the order of their arrival. Of records with the same number the
one that arrived first stands last, and the last one counts. If no participant uses a number twice,
then the order of arrival does not show at all.

* `Book.recordsOf`, `Book.Tops`: the records of a participant, and the one that counts;
* `Book.Reflects`, `Book.reflects_ofRecords`: what a book shows of its records;
* `Book.Alike`, `Book.alike_of_eq`: two books show the same;
* `Book.Distinct`, `Book.ofRecords_eq_of_perm`: no participant uses a number twice, and then the
  order of arrival does not matter;
* `Book.records_in_any_order`: all of this for the records of a book.
-/

namespace DelegatedVoting.Ballot.Book

variable {b b' : Book} {r r' : Record} {trail records records' : List Record} {v : ParticipantId}

/-! ### What a book shows of its records -/

/-- The records of a participant, in the order of their arrival. -/
def recordsOf (v : ParticipantId) (records : List Record) : List Record :=
  records.filter fun r => r.action.voter = v

/-- A record has the largest number, and is the first one that has it. -/
def Tops (r : Record) (records : List Record) : Prop :=
  ∃ before after, records = before ++ r :: after ∧
    (∀ r' ∈ before, r'.action.seq < r.action.seq) ∧ ∀ r' ∈ after, r'.action.seq ≤ r.action.seq

/-- What a book shows of records that have arrived one after the other. -/
structure Reflects (b : Book) (records : List Record) : Prop where
  perm_trail : ∀ v, (b.trail v).Perm (recordsOf v records)
  ascends : ∀ v, Ascends (b.trail v)
  /-- The last record of a trail has the largest number and arrived before any other that has it. -/
  tops : ∀ v last, (b.trail v).getLast? = some last → Tops last (recordsOf v records)
  current?_eq : ∀ v, b.current? v = (b.trail v).getLast?.map Record.action
  current?_eq_none_iff : ∀ v, b.current? v = none ↔ ∀ r ∈ records, r.action.voter ≠ v
  actors_ascend : b.actors.Pairwise (· < ·)
  mem_actors_iff : ∀ v, v ∈ b.actors ↔ ∃ r ∈ records, r.action.voter = v
  /-- Numbers start at one, and the last number has no successor. -/
  nextSeq_eq : b.nextSeq.toNat =
    (records.map fun r => min (r.action.seq.toNat + 1) (2 ^ 64 - 1)).foldl max 1

theorem recordsOf_append_singleton (v : ParticipantId) (records : List Record) (r : Record) :
    recordsOf v (records ++ [r]) =
      recordsOf v records ++ if r.action.voter = v then [r] else [] := by
  simp [recordsOf, List.filter_append, List.filter_singleton]

/-- A record with a larger number than the largest one tops the records. -/
theorem Tops.append_of_lt {last : Record} (h : Tops last records)
    (hlt : last.action.seq < r.action.seq) : Tops r (records ++ [r]) := by
  obtain ⟨before, after, rfl, hbefore, hafter⟩ := h
  refine ⟨_, [], rfl, fun r' hr' => ?_, nofun⟩
  rcases List.mem_append.1 hr' with hr' | hr'
  · exact UInt64.lt_trans (hbefore r' hr') hlt
  · rcases List.mem_cons.1 hr' with rfl | hr'
    · exact hlt
    · exact UInt64.lt_of_le_of_lt (hafter r' hr') hlt

/-- Any other record leaves the one that tops the records in its place. -/
theorem Tops.append_of_le {last : Record} (h : Tops last records)
    (hle : r.action.seq ≤ last.action.seq) : Tops last (records ++ [r]) := by
  obtain ⟨before, after, rfl, hbefore, hafter⟩ := h
  refine ⟨before, after ++ [r], by simp, hbefore, fun r' hr' => ?_⟩
  rcases List.mem_append.1 hr' with hr' | hr'
  · exact hafter r' hr'
  · obtain rfl := List.mem_singleton.1 hr'
    exact hle

theorem trail_ofRecords_eq_nil_iff :
    (ofRecords records).trail v = [] ↔ recordsOf v records = [] := by
  have hperm := perm_trail_ofRecords records v
  constructor
  · intro h
    exact List.nil_perm.1 (h ▸ hperm)
  · intro h
    exact List.perm_nil.1 (hperm.trans (h ▸ .refl _))

/-- **The last record of a trail tops the records of its participant.** -/
theorem tops_of_getLast?_trail {last : Record}
    (hlast : ((ofRecords records).trail v).getLast? = some last) :
    Tops last (recordsOf v records) := by
  induction records using List.reverseRecOn generalizing last with
  | nil => simp at hlast
  | append_singleton records new ih =>
    rw [ofRecords_append, trail_apply] at hlast
    rw [recordsOf_append_singleton]
    by_cases hv : new.action.voter = v
    · rw [if_pos hv, getLast?_enter ((ordered_ofRecords records).ascends v)] at hlast
      rw [if_pos hv]
      cases hold : ((ofRecords records).trail v).getLast? with
      | none =>
        -- the trail was empty, so the new record is the only one
        have hnil := trail_ofRecords_eq_nil_iff.1 (List.getLast?_eq_none_iff.1 hold)
        rw [hold] at hlast
        obtain rfl := Option.some.inj hlast
        exact ⟨[], [], by rw [hnil], nofun, nofun⟩
      | some old =>
        rw [hold] at hlast
        dsimp only at hlast
        split at hlast
        · obtain rfl := Option.some.inj hlast
          exact (ih hold).append_of_lt ‹_›
        · obtain rfl := Option.some.inj hlast
          exact (ih hold).append_of_le (UInt64.not_lt.1 ‹_›)
    · rw [if_neg hv] at hlast
      rw [if_neg hv, List.append_nil]
      exact ih hlast

/-- The successor of a number, as far as there is one. -/
theorem toNat_after_eq_min (n : UInt64) : (after n).toNat = min (n.toNat + 1) (2 ^ 64 - 1) := by
  have hlt := n.toNat_lt
  by_cases hroom : Recovery.HasSuccessor n
  · rw [toNat_after hroom]
    unfold Recovery.HasSuccessor UInt64.size at hroom
    omega
  · have hlast : n.toNat = 2 ^ 64 - 1 := by
      unfold Recovery.HasSuccessor UInt64.size at hroom
      omega
    have hzero : n + 1 = 0 := UInt64.toNat_inj.1 (by rw [UInt64.toNat_add, hlast]; rfl)
    rw [after, if_pos hzero, hlast]
    rfl

theorem toNat_nextSeq_ofRecords (records : List Record) : (ofRecords records).nextSeq.toNat =
    (records.map fun r => min (r.action.seq.toNat + 1) (2 ^ 64 - 1)).foldl max 1 := by
  induction records using List.reverseRecOn with
  | nil => rfl
  | append_singleton records last ih =>
    rw [ofRecords_append, toNat_nextSeq_apply, ih, toNat_after_eq_min, List.map_append,
      List.foldl_append]
    rfl

theorem current?_ofRecords_eq_none_iff :
    (ofRecords records).current? v = none ↔ ∀ r ∈ records, r.action.voter ≠ v := by
  rw [(ordered_ofRecords records).current?_eq, Option.map_eq_none_iff, List.getLast?_eq_none_iff,
    trail_ofRecords_eq_nil_iff, recordsOf, List.filter_eq_nil_iff]
  simp

/-- **What a book shows of its records.** -/
theorem reflects_ofRecords (records : List Record) : (ofRecords records).Reflects records where
  perm_trail := perm_trail_ofRecords records
  ascends := (ordered_ofRecords records).ascends
  tops _ _ := tops_of_getLast?_trail
  current?_eq := (ordered_ofRecords records).current?_eq
  current?_eq_none_iff _ := current?_ofRecords_eq_none_iff
  actors_ascend := Std.ExtTreeMap.ordered_keys.imp Std.compare_eq_lt.1
  mem_actors_iff v := by
    rw [Resolution.mem_actors_iff, ne_eq, current?_ofRecords_eq_none_iff]
    simp
  nextSeq_eq := toNat_nextSeq_ofRecords records

/-! ### The order of arrival -/

/-- Two books show the same. -/
structure Alike (b b' : Book) : Prop where
  nextSeq_eq : b.nextSeq = b'.nextSeq
  current?_eq : ∀ v, b.current? v = b'.current? v
  trail_eq : ∀ v, b.trail v = b'.trail v
  actors_eq : b.actors = b'.actors
  resolve_eq : b.resolve = b'.resolve

/-- Books with the same trails and the same actions that count show the same, if their next numbers
are the same. -/
theorem alike_of_eq (hnext : b.nextSeq = b'.nextSeq) (htrail : ∀ v, b.trail v = b'.trail v)
    (hcurrent : ∀ v, b.current? v = b'.current? v) : b.Alike b' := by
  have hmap : b.current = b'.current := Std.ExtTreeMap.ext_getElem? fun {v} => hcurrent v
  have hactors : b.actors = b'.actors := congrArg Std.ExtTreeMap.keys hmap
  refine ⟨hnext, hcurrent, htrail, hactors, ?_⟩
  simp only [resolve, Resolution.Progress.all, Resolution.Progress.start, hactors, hmap]

/-- No participant uses a number twice. -/
def Distinct (records : List Record) : Prop :=
  records.Pairwise fun r r' => r.action.voter = r'.action.voter → r.action.seq ≠ r'.action.seq

/-- Records of a participant who uses no number twice are told by their numbers. -/
theorem Distinct.eq_of_seq_eq (h : Distinct records) (hr : r ∈ recordsOf v records)
    (hr' : r' ∈ recordsOf v records) (hseq : r.action.seq = r'.action.seq) : r = r' := by
  have hnodup : ((recordsOf v records).map fun r => r.action.seq).Nodup := by
    refine List.pairwise_map.2 (List.Pairwise.imp_of_mem (fun hr hr' hne => ?_) (h.filter _))
    have hv := (List.mem_filter.1 hr).2
    have hv' := (List.mem_filter.1 hr').2
    exact hne ((of_decide_eq_true hv).trans (of_decide_eq_true hv').symm)
  exact List.inj_on_of_nodup_map hnodup hr hr' hseq

/-- **Records may arrive in any order** if no participant uses a number twice. -/
theorem alike_ofRecords_of_perm (h : Distinct records) (hperm : records'.Perm records) :
    (ofRecords records').Alike (ofRecords records) := by
  have hrecordsOf (v : ParticipantId) : (recordsOf v records').Perm (recordsOf v records) :=
    hperm.filter _
  have htrail (v : ParticipantId) : (ofRecords records').trail v = (ofRecords records).trail v := by
    -- both trails are sorted, and there is only one order of records with different numbers
    have hperm' := perm_trail_ofRecords records' v
    have hperm := perm_trail_ofRecords records v
    refine (hperm'.trans ((hrecordsOf v).trans hperm.symm)).eq_of_pairwise
      (fun r r' hr hr' hle hge => ?_) ((ordered_ofRecords records').ascends v)
      ((ordered_ofRecords records).ascends v)
    exact h.eq_of_seq_eq ((hrecordsOf v).mem_iff.1 (hperm'.mem_iff.1 hr)) (hperm.mem_iff.1 hr')
      (UInt64.le_antisymm hle hge)
  refine alike_of_eq (UInt64.toNat_inj.1 ?_) htrail fun v => ?_
  · rw [toNat_nextSeq_ofRecords, toNat_nextSeq_ofRecords]
    exact (hperm.map _).foldl_eq 1
  · rw [(ordered_ofRecords records').current?_eq, htrail, (ordered_ofRecords records).current?_eq]

/-! ### Books without a counter -/

/-- The first record sets the counter, whatever it was. -/
theorem apply_blank (r : Record) : blank.apply r = empty.apply r := rfl

/-- A book whose counter has not been set shows what other books show. -/
theorem alike_foldl_blank (records : List Record) :
    (records.foldl apply blank).Alike (ofRecords records) := by
  cases records with
  | nil => exact alike_of_eq rfl (fun _ => rfl) fun _ => rfl
  | cons r records =>
    rw [List.foldl_cons, apply_blank]
    exact alike_of_eq rfl (fun _ => rfl) fun _ => rfl

/-! ### Any records in any order -/

/-- **Any records in any order.** A book shows of its records what it should, the order in which
they arrive does not matter if no participant uses a number twice, and it does not matter whether
the counter has been set before the first one. -/
theorem records_in_any_order (records : List Record) :
    (ofRecords records).Reflects records ∧
      (Distinct records → ∀ records', records'.Perm records →
        (ofRecords records').Alike (ofRecords records)) ∧
      (records.foldl apply blank).Alike (ofRecords records) :=
  ⟨reflects_ofRecords records, fun h _ hperm => alike_ofRecords_of_perm h hperm,
    alike_foldl_blank records⟩

/-- A late record, a record with the last number, and a number that two participants use. -/
theorem records_in_any_order_of_three :
    let late : Record := ⟨.vote 2 false 3, 9⟩
    let records : List Record := [⟨.vote 2 true 5, 7⟩, late, ⟨.delegation 7 2 (2 ^ 64 - 1), 8⟩,
      ⟨.vote 4 true 5, 7⟩]
    (ofRecords records.reverse).Alike (ofRecords records) ∧
      (ofRecords records.reverse).trail 2 = [late, ⟨.vote 2 true 5, 7⟩] ∧
      (ofRecords records).nextSeq = 2 ^ 64 - 1 := by
  intro late records
  have hdistinct : Distinct records := by unfold Distinct; decide
  have halike := (records_in_any_order records).2.1 hdistinct _ (List.reverse_perm records)
  exact ⟨halike, by decide +kernel, by decide +kernel⟩

end DelegatedVoting.Ballot.Book
