import DelegatedVoting.Proofs.Contents
import DelegatedVoting.Proofs.Keys

/-!
# The tables make a lawful store

Every record stands under a key of its own, and the ballots of a proposal are the entries whose keys
begin with its name. So the tables keep what a store is to keep, whatever notes they hold.

* `Table.Holds`: a table holds the values of a function under their keys;
* `Tables.Keeps`: what the tables keep;
* the tables make a lawful store.
-/

namespace DelegatedVoting

/-! ### One table -/

namespace Table

variable {κ : Type} {key : κ → Bytes} {f : κ → Option Bytes} {t : Table} {x : κ}

/-- A table holds the values of a function under their keys, and nothing else. -/
def Holds (t : Table) (key : κ → Bytes) (f : κ → Option Bytes) : Prop :=
  ∀ k record, t[k]? = some record ↔ ∃ x, key x = k ∧ f x = some record

theorem holds_empty : Holds ∅ key fun _ => none := by simp [Holds]

theorem Holds.getElem?_eq (h : t.Holds key f) (hkey : key.Injective) : t[key x]? = f x := by
  refine Option.ext fun record => (h _ _).trans ⟨?_, fun hx => ⟨x, rfl, hx⟩⟩
  rintro ⟨x', hx', hrecord⟩
  rwa [hkey hx'] at hrecord

theorem Holds.insert [DecidableEq κ] (h : t.Holds key f) (hkey : key.Injective) (x : κ)
    (value : Bytes) : Holds (t.insert (key x) value) key (Function.update f x (some value)) := by
  intro k record
  rw [Maps.getElem?_insert]
  by_cases hk : key x = k
  · subst hk
    rw [if_pos rfl]
    constructor
    · exact fun hvalue => ⟨x, rfl, by rwa [Function.update_self]⟩
    · rintro ⟨x', hx', hrecord⟩
      rwa [hkey hx', Function.update_self] at hrecord
  · rw [if_neg hk, h]
    refine exists_congr fun x' => and_congr_right fun hx' => ?_
    have hne : x' ≠ x := by
      rintro rfl
      exact hk hx'
    rw [Function.update_of_ne hne]

end Table

namespace Tables

variable {ts ts' : Tables} {c : Contents} {p : ProposalId} {seq : UInt64} {record tally : Bytes}

/-! ### What the tables keep -/

/-- What the tables keep. They may hold any notes. -/
structure Keeps (ts : Tables) (c : Contents) : Prop where
  proposals : ts.proposals.Holds ProposalId.bytes fun p => c.proposals[p]?
  ballots : ts.ballots.Holds (fun x : ProposalId × UInt64 => Key.ballot x.1 x.2)
    fun x => (c.ballots x.1)[x.2]?
  tallies : ts.tallies.Holds ProposalId.bytes c.tallies

theorem bytes_injective : ProposalId.bytes.Injective := fun _ _ => ProposalId.ext

theorem ballot_injective :
    Function.Injective fun x : ProposalId × UInt64 => Key.ballot x.1 x.2 := by
  intro x y h
  obtain ⟨hp, hseq⟩ := Key.ballot_inj.1 h
  exact Prod.ext hp hseq

theorem keeps_empty (notes : Table) : Keeps { empty with notes } .empty where
  proposals := by simpa [Contents.empty, empty] using Table.holds_empty
  ballots := by simpa [Contents.empty, empty] using Table.holds_empty
  tallies := Table.holds_empty

/-- A key of an ordinary length is accepted. -/
theorem put_eq_ok {key : Bytes} (hkey : 1 ≤ key.length ∧ key.length ≤ Table.maxKeyLength)
    (name : TableName) (value : Bytes) (ts : Tables) :
    ts.put name key value = .ok (ts.setTable name ((ts.table name).insert key value)) := by
  rw [put, Table.put, if_pos hkey]
  rfl

theorem bytes_fits (p : ProposalId) :
    1 ≤ p.bytes.length ∧ p.bytes.length ≤ Table.maxKeyLength := by
  rw [p.length_bytes]
  decide

theorem ballot_fits (p : ProposalId) (seq : UInt64) :
    1 ≤ (Key.ballot p seq).length ∧ (Key.ballot p seq).length ≤ Table.maxKeyLength := by
  rw [Key.length_ballot]
  decide

theorem get_eq_ok {key : Bytes} (hkey : 1 ≤ key.length) (t : Table) : t.get key = .ok t[key]? := by
  rw [Table.get, if_neg]
  cases key with
  | nil => cases hkey
  | cons => nofun

/-! ### Writes -/

theorem putProposal_eq (p : ProposalId) (record : Bytes) (ts : Tables) :
    Store.putProposal p record ts =
      .ok (ts.setTable .proposals (ts.proposals.insert p.bytes record)) := by
  show asStore (ts.put .proposals p.bytes record) = _
  rw [put_eq_ok (bytes_fits p)]
  rfl

theorem putBallot_eq (p : ProposalId) (seq : UInt64) (record : Bytes) (ts : Tables) :
    Store.putBallot p seq record ts =
      .ok (ts.setTable .ballots (ts.ballots.insert (Key.ballot p seq) record)) := by
  show asStore (ts.put .ballots (Key.ballot p seq) record) = _
  rw [put_eq_ok (ballot_fits p seq)]
  rfl

theorem putFinalization_eq (p : ProposalId) (record tally : Bytes) (ts : Tables) :
    Store.putFinalization p record tally ts =
      .ok ((ts.setTable .proposals (ts.proposals.insert p.bytes record)).setTable .tallies
        (ts.tallies.insert p.bytes tally)) := by
  show asStore (ts.put .proposals p.bytes record >>= fun ts => ts.put .tallies p.bytes tally) = _
  rw [put_eq_ok (bytes_fits p), ok_bind, put_eq_ok (bytes_fits p)]
  rfl

theorem holds_insert_proposal {proposals : Std.ExtTreeMap ProposalId Bytes} {t : Table}
    (h : t.Holds ProposalId.bytes fun p => proposals[p]?) (p : ProposalId) (record : Bytes) :
    Table.Holds (t.insert p.bytes record) ProposalId.bytes
      fun q => (proposals.insert p record)[q]? := by
  have hproposals : (fun q => (proposals.insert p record)[q]?) =
      Function.update (fun q => proposals[q]?) p (some record) := by
    funext q
    rw [Maps.getElem?_insert, Function.update_apply]
    simp only [eq_comm]
  rw [hproposals]
  exact h.insert bytes_injective p record

theorem Keeps.putProposal (h : ts.Keeps c)
    (hput : Store.putProposal p record ts = .ok ts') : ts'.Keeps (c.putProposal p record) := by
  rw [putProposal_eq] at hput
  cases hput
  exact ⟨holds_insert_proposal h.proposals p record, h.ballots, h.tallies⟩

theorem Keeps.putBallot (h : ts.Keeps c)
    (hput : Store.putBallot p seq record ts = .ok ts') : ts'.Keeps (c.putBallot p seq record) := by
  rw [putBallot_eq] at hput
  cases hput
  refine ⟨h.proposals, ?_, h.tallies⟩
  have hballots : (fun x : ProposalId × UInt64 => ((c.putBallot p seq record).ballots x.1)[x.2]?) =
      Function.update (fun x => (c.ballots x.1)[x.2]?) (p, seq) (some record) := by
    funext ⟨q, n⟩
    show ((Function.update c.ballots p ((c.ballots p).insert seq record)) q)[n]? = _
    by_cases hq : q = p
    · subst hq
      rw [Function.update_self, Maps.getElem?_insert, Function.update_apply]
      simp only [Prod.mk.injEq, true_and, eq_comm]
    · rw [Function.update_of_ne hq, Function.update_of_ne fun heq => hq (congrArg Prod.fst heq)]
  rw [hballots]
  exact h.ballots.insert ballot_injective (p, seq) record

theorem Keeps.putFinalization (h : ts.Keeps c)
    (hput : Store.putFinalization p record tally ts = .ok ts') :
    ts'.Keeps (c.putFinalization p record tally) := by
  rw [putFinalization_eq] at hput
  cases hput
  exact ⟨holds_insert_proposal h.proposals p record, h.ballots,
    h.tallies.insert bytes_injective p tally⟩

/-! ### Reads -/

/-- A listing is read if its keys tell what they are. -/
theorem entries_map {κ : Type} {read : Bytes → Option κ} {write : κ → Bytes}
    (hread : ∀ k, read (write k) = some k) (problem : String) (l : List (κ × Bytes)) :
    entries read problem (l.map fun e => (write e.1, e.2)) = .ok l :=
  mapM_map_eq_ok fun e _ => by rw [hread]

theorem proposal?_bytes (p : ProposalId) : Key.proposal? p.bytes = some p :=
  dif_pos p.length_bytes

theorem Keeps.proposal_eq (h : ts.Keeps c) (p : ProposalId) : Store.proposal p ts =
    match c.proposals[p]? with
    | some record => .ok record
    | none => .error (.notFound ("proposal " ++ toString p)) := by
  show asStore (ts.proposals.get p.bytes >>= _) = _
  rw [get_eq_ok (bytes_fits p).1, ok_bind, h.proposals.getElem?_eq bytes_injective]
  cases c.proposals[p]? <;> rfl

theorem Keeps.tally_eq (h : ts.Keeps c) (p : ProposalId) :
    Store.tally p ts = .ok (c.tallies p) := by
  show asStore (ts.tallies.get p.bytes) = _
  rw [get_eq_ok (bytes_fits p).1, h.tallies.getElem?_eq bytes_injective]
  rfl

/-- The proposals are listed with their names for keys. -/
theorem Keeps.toList_proposals (h : ts.Keeps c) :
    ts.proposals.toList = c.proposals.toList.map fun e => (e.1.bytes, e.2) := by
  refine Maps.toList_eq ?_ fun key record => ?_
  · rw [List.pairwise_map]
    exact Maps.sorted_toList c.proposals
  · rw [h.proposals]
    simp only [List.mem_map, Prod.exists, Prod.mk.injEq, Maps.mem_toList_iff]
    constructor
    · rintro ⟨p, _, hp, rfl, rfl⟩
      exact ⟨p, rfl, hp⟩
    · rintro ⟨p, rfl, hp⟩
      exact ⟨p, record, hp, rfl, rfl⟩

theorem Keeps.proposals_eq (h : ts.Keeps c) : Store.proposals ts = .ok c.proposals.toList := by
  show asStore (entries Key.proposal? _ ts.proposals.toList) = _
  rw [h.toList_proposals, entries_map proposal?_bytes]
  rfl

theorem Keeps.ballots_eq (h : ts.Keeps c) (p : ProposalId) :
    Store.ballots p ts = .ok (c.ballots p).toList := by
  have hlist : ts.ballots.below p.bytes =
      (c.ballots p).toList.map fun e => (Key.ballot p e.1, e.2) := by
    refine Maps.eq_of_sorted Prod.fst ?_ ?_ fun e => ?_
    · exact (Maps.sorted_toList ts.ballots).filter _
    · rw [List.pairwise_map]
      refine (Maps.sorted_toList (c.ballots p)).imp fun {x y} hxy => ?_
      -- under one proposal, the order of the keys is that of the numbers
      rw [Key.compare_ballot, Std.ReflOrd.compare_self]
      exact hxy
    · rw [Table.mem_below_iff, h.ballots]
      simp only [List.mem_map, Prod.exists, Maps.mem_toList_iff]
      constructor
      · rintro ⟨⟨q, seq, hkey, hrecord⟩, hextends⟩
        rw [← hkey, Key.isPrefix_ballot_iff] at hextends
        subst hextends
        exact ⟨seq, e.2, hrecord, Prod.ext hkey rfl⟩
      · rintro ⟨seq, record, hrecord, rfl⟩
        exact ⟨⟨p, seq, rfl, hrecord⟩, Key.isPrefix_ballot_iff.2 rfl⟩
  show asStore (entries Key.seq? _ (ts.ballots.below p.bytes)) = _
  rw [hlist, entries_map (Key.seq?_ballot p)]
  rfl

instance : LawfulStore Tables where
  Keeps := Keeps
  refuseWrites _ ts := ts
  keeps_refuseWrites _ h := h
  keeps_putProposal := Keeps.putProposal
  keeps_putBallot := Keeps.putBallot
  keeps_putFinalization := Keeps.putFinalization
  proposal_eq p h := h.proposal_eq p
  proposals_eq := Keeps.proposals_eq
  ballots_eq p h := h.ballots_eq p
  tally_eq p h := h.tally_eq p

end Tables

end DelegatedVoting
