import DelegatedVoting.Proofs.Admission
import DelegatedVoting.Proofs.Tables
import DelegatedVoting.Store.Integrity

/-!
# What a healthy inspection promises

An inspection looks at the number of bytes of each key of a whole table. The reads look at the keys
of one listing, or of the ballots of one proposal. What the inspection has seen is enough: a key of
the right number of bytes is the key of a proposal or of a ballot, so no listing meets a key that it
cannot read, and every entry is in one of the listings.

* `Tables.IsWellKeyed`, `isHealthy_inspect_iff`: what an inspection finds out;
* `Table.reading`, `Tables.contents`: what tables keep, as far as their keys can be read;
* `Tables.keeps_contents_iff`: the keys of tables can all be read if and only if they have the right
  numbers of bytes;
* `Tables.inspection_is_enough`: what is known of tables that have been found healthy.
-/

namespace DelegatedVoting

/-! ### What an inspection finds out -/

/-- The keys of the tables have the right numbers of bytes. -/
structure Tables.IsWellKeyed (ts : Tables) : Prop where
  proposals : ∀ key ∈ ts.proposals, key.length = 16
  ballots : ∀ key ∈ ts.ballots, key.length = 24
  tallies : ∀ key ∈ ts.tallies, key.length = 16

theorem TableName.badKeys_eq_zero_iff {name : TableName} {t : Table} {length : Nat}
    (hname : name.keyLength = some length) :
    name.badKeys t = 0 ↔ ∀ key ∈ t, key.length = length := by
  simp [badKeys, hname, List.countP_eq_zero]

theorem TableName.defects_eq_nil_iff {name : TableName} {found : Found} :
    name.defects found = [] ↔ ∃ t, found = .table t ∧ name.badKeys t = 0 := by
  cases found <;> simp [defects]

theorem Tables.isWellKeyed_iff {ts : Tables} :
    ts.IsWellKeyed ↔ ∀ name : TableName, name.badKeys (ts.table name) = 0 := by
  constructor
  · intro h name
    cases name with
    | proposals => exact (TableName.badKeys_eq_zero_iff rfl).2 h.proposals
    | ballots => exact (TableName.badKeys_eq_zero_iff rfl).2 h.ballots
    | tallies => exact (TableName.badKeys_eq_zero_iff rfl).2 h.tallies
    | notes => rfl
  · intro h
    exact ⟨(TableName.badKeys_eq_zero_iff rfl).1 (h .proposals),
      (TableName.badKeys_eq_zero_iff rfl).1 (h .ballots),
      (TableName.badKeys_eq_zero_iff rfl).1 (h .tallies)⟩

/-- **An inspection finds nothing wrong if and only if** all four tables are there and their keys
have the right numbers of bytes. -/
theorem isHealthy_inspect_iff {found : TableName → Found} : (inspect found).isHealthy ↔
    ∃ ts : Tables, (∀ name, found name = .table (ts.table name)) ∧ ts.IsWellKeyed := by
  have hall (name : TableName) : name ∈ TableName.all := by cases name <;> decide
  have hhealthy :
      (inspect found).isHealthy ↔ ∀ name : TableName, name.defects (found name) = [] := by
    rw [Inspection.isHealthy, List.isEmpty_iff, inspect, List.flatMap_eq_nil_iff]
    exact forall_congr' fun name => ⟨fun h => h (hall name), fun h _ => h⟩
  simp only [hhealthy, TableName.defects_eq_nil_iff, Tables.isWellKeyed_iff]
  constructor
  · intro h
    choose t hfound hkeys using h
    refine ⟨⟨t .proposals, t .ballots, t .tallies, t .notes⟩, fun name => ?_, fun name => ?_⟩
    · cases name <;> exact hfound _
    · cases name <;> exact hkeys _
  · rintro ⟨ts, hfound, hkeys⟩ name
    exact ⟨_, hfound name, hkeys name⟩

/-! ### What tables keep -/

/-- The entries of a table whose keys can be read, under what the keys say. -/
def Table.reading {κ : Type} [Ord κ] [Std.TransOrd κ] (read : Bytes → Option κ) (t : Table) :
    Std.ExtTreeMap κ Bytes :=
  (t.toList.filterMap fun e => (read e.1).map fun k => (k, e.2)).foldl
    (fun m e => m.insert e.1 e.2) ∅

theorem Table.getElem?_reading {κ : Type} [Ord κ] [Std.TransOrd κ] [Std.LawfulEqOrd κ]
    [DecidableEq κ] {read : Bytes → Option κ} {write : κ → Bytes}
    (hread : ∀ key k, read key = some k ↔ write k = key) (t : Table) (k : κ) :
    (t.reading read)[k]? = t[write k]? := by
  have hmem {k : κ} {record : Bytes} :
      (k, record) ∈ (t.toList.filterMap fun e => (read e.1).map fun k => (k, e.2)) ↔
        t[write k]? = some record := by
    simp only [List.mem_filterMap, Option.map_eq_some_iff, Prod.exists, Maps.mem_toList_iff, hread,
      Prod.mk.injEq]
    constructor
    · rintro ⟨_, _, hrecord, _, rfl, rfl, rfl⟩
      exact hrecord
    · exact fun hrecord => ⟨_, _, hrecord, k, rfl, rfl, rfl⟩
  refine Option.ext fun record => (Maps.getElem?_foldl_insert_eq_some_iff ?_).trans ?_
  · rintro ⟨k, v⟩ hv ⟨k', v'⟩ hv' (rfl : k = k')
    exact Option.some.inj ((hmem.1 hv).symm.trans (hmem.1 hv'))
  · constructor
    · rintro ⟨⟨_, _⟩, hrecord, rfl, rfl⟩
      exact hmem.1 hrecord
    · exact fun hrecord => ⟨(k, record), hmem.2 hrecord, rfl, rfl⟩

/-- A table holds what it has under the keys of some kind if it has no other keys. -/
theorem Table.holds_self_iff {κ : Type} {key : κ → Bytes} {t : Table} :
    (t.Holds key fun x => t[key x]?) ↔ ∀ k ∈ t, ∃ x, key x = k := by
  constructor
  · intro h k hk
    obtain ⟨record, hrecord⟩ := Maps.mem_iff.1 hk
    obtain ⟨x, hx, -⟩ := (h k record).1 hrecord
    exact ⟨x, hx⟩
  · intro h k record
    constructor
    · intro hrecord
      obtain ⟨x, rfl⟩ := h k (Maps.mem_iff.2 ⟨record, hrecord⟩)
      exact ⟨x, rfl, hrecord⟩
    · rintro ⟨x, rfl, hrecord⟩
      exact hrecord

namespace Key

/-- The number in the key of a ballot of the given proposal. -/
def seqIn? (p : ProposalId) (key : Bytes) : Option UInt64 :=
  if p.bytes <+: key then seq? key else none

theorem exists_bytes_iff {key : Bytes} : (∃ p : ProposalId, p.bytes = key) ↔ key.length = 16 := by
  constructor
  · rintro ⟨p, rfl⟩
    exact p.length_bytes
  · exact fun h => ⟨⟨key, h⟩, rfl⟩

/-- The keys of the right number of bytes are the keys of ballots. -/
theorem exists_ballot_iff {key : Bytes} :
    (∃ x : ProposalId × UInt64, ballot x.1 x.2 = key) ↔ key.length = 24 := by
  constructor
  · rintro ⟨x, rfl⟩
    exact length_ballot x.1 x.2
  · intro h
    have hname : (key.take 16).length = 16 := by simp [h]
    have hnumber : (key.drop 16).length = 8 := by simp [h]
    have hlt := Bytes.ofBigEndian_lt (key.drop 16)
    rw [hnumber] at hlt
    refine ⟨(⟨key.take 16, hname⟩, UInt64.ofNat (Bytes.ofBigEndian (key.drop 16))), ?_⟩
    rw [ballot, UInt64.toNat_ofNat_of_lt' hlt, ← hnumber, Bytes.bigEndian_ofBigEndian]
    exact List.take_append_drop 16 key

theorem seqIn?_eq_some_iff {p : ProposalId} {key : Bytes} {seq : UInt64} :
    seqIn? p key = some seq ↔ ballot p seq = key := by
  unfold seqIn?
  constructor
  · intro h
    split at h
    · rename_i hextends
      have hlength : key.length = 24 := by
        unfold seq? at h
        split at h
        · assumption
        · cases h
      obtain ⟨⟨q, seq'⟩, rfl⟩ := exists_ballot_iff.2 hlength
      obtain rfl := isPrefix_ballot_iff.1 hextends
      rw [seq?_ballot, Option.some.injEq] at h
      rw [h]
    · cases h
  · rintro rfl
    rw [if_pos (isPrefix_ballot_iff.2 rfl), seq?_ballot]

end Key

namespace Tables

/-- What tables keep, as far as their keys can be read. -/
def contents (ts : Tables) : Contents where
  proposals := ts.proposals.reading Key.proposal?
  ballots p := ts.ballots.reading (Key.seqIn? p)
  tallies p := ts.tallies[p.bytes]?

variable {ts : Tables} {c : Contents}

/-- **The keys of tables can all be read if and only if they have the right numbers of bytes.** -/
theorem keeps_contents_iff : ts.Keeps ts.contents ↔ ts.IsWellKeyed := by
  have hproposals : (fun p => ts.contents.proposals[p]?) =
      fun p : ProposalId => ts.proposals[p.bytes]? :=
    funext (Table.getElem?_reading (fun _ _ => ProposalId.ofBytes?_eq_some_iff) _)
  have hballots : (fun x : ProposalId × UInt64 => (ts.contents.ballots x.1)[x.2]?) =
      fun x => ts.ballots[Key.ballot x.1 x.2]? :=
    funext fun x => Table.getElem?_reading (fun _ _ => Key.seqIn?_eq_some_iff) _ x.2
  have hkeeps : ts.Keeps ts.contents ↔
      (∀ key ∈ ts.proposals, ∃ p : ProposalId, p.bytes = key) ∧
        (∀ key ∈ ts.ballots, ∃ x : ProposalId × UInt64, Key.ballot x.1 x.2 = key) ∧
        ∀ key ∈ ts.tallies, ∃ p : ProposalId, p.bytes = key := by
    simp only [← Table.holds_self_iff, ← hproposals, ← hballots]
    exact ⟨fun h => ⟨h.proposals, h.ballots, h.tallies⟩, fun h => ⟨h.1, h.2.1, h.2.2⟩⟩
  rw [hkeeps]
  simp only [Key.exists_bytes_iff, Key.exists_ballot_iff]
  exact ⟨fun h => ⟨h.1, h.2.1, h.2.2⟩, fun h => ⟨h.proposals, h.ballots, h.tallies⟩⟩

/-! ### Listings of healthy tables -/

theorem Keeps.mem_toList_ballots (h : ts.Keeps c) {e : Bytes × Bytes} : e ∈ ts.ballots.toList ↔
    ∃ p, ∃ b ∈ (c.ballots p).toList, (Key.ballot p b.1, b.2) = e := by
  rw [Maps.mem_toList_iff, h.ballots]
  constructor
  · rintro ⟨⟨p, seq⟩, hkey, hrecord⟩
    exact ⟨p, (seq, e.2), Maps.mem_toList_iff.2 hrecord, Prod.ext hkey rfl⟩
  · rintro ⟨p, b, hb, rfl⟩
    exact ⟨(p, b.1), rfl, Maps.mem_toList_iff.1 hb⟩

/-- **The ballots of all proposals together** are the entries of their table, each of them once. -/
theorem Keeps.exists_perm_ballots (h : ts.Keeps c) : ∃ ids : List ProposalId, ids.Nodup ∧
    (∀ p, p ∈ ids ↔ (c.ballots p).toList ≠ []) ∧
      (ids.flatMap fun p => (c.ballots p).toList.map fun b => (Key.ballot p b.1, b.2)).Perm
        ts.ballots.toList := by
  -- the proposals that have ballots are read off the keys
  let ids := (ts.ballots.toList.filterMap fun e => ProposalId.ofBytes? (e.1.take 16)).dedup
  have hname (p : ProposalId) (seq : UInt64) :
      ProposalId.ofBytes? ((Key.ballot p seq).take 16) = some p := by
    rw [Key.ballot, List.take_left' p.length_bytes]
    exact proposal?_bytes p
  have hids (p : ProposalId) : p ∈ ids ↔ ∃ b, b ∈ (c.ballots p).toList := by
    simp only [ids, List.mem_dedup, List.mem_filterMap, h.mem_toList_ballots]
    constructor
    · rintro ⟨_, ⟨q, b, hb, rfl⟩, hp⟩
      rw [hname, Option.some.injEq] at hp
      exact ⟨b, hp ▸ hb⟩
    · rintro ⟨b, hb⟩
      exact ⟨_, ⟨p, b, hb, rfl⟩, hname p b.1⟩
  refine ⟨ids, List.nodup_dedup _, fun p => ?_, ?_⟩
  · rw [hids]
    constructor
    · rintro ⟨b, hb⟩
      exact List.ne_nil_of_mem hb
    · exact List.exists_mem_of_ne_nil _
  refine (List.perm_ext_iff_of_nodup ?_ (Maps.nodup_toList _)).2 fun e => ?_
  · refine List.nodup_flatMap.2 ⟨fun p _ => (Maps.nodup_toList _).map ?_, ?_⟩
    · intro b b' heq
      obtain ⟨hkey, hrecord⟩ := Prod.mk.inj heq
      exact Prod.ext (Key.ballot_inj.1 hkey).2 hrecord
    · refine (List.nodup_dedup _).imp fun {p q} hne => ?_
      rintro e hp hq
      obtain ⟨b, -, rfl⟩ := List.mem_map.1 hp
      obtain ⟨b', -, heq⟩ := List.mem_map.1 hq
      exact hne (Key.ballot_inj.1 (Prod.mk.inj heq).1).1.symm
  · rw [h.mem_toList_ballots, List.mem_flatMap]
    constructor
    · rintro ⟨p, -, he⟩
      obtain ⟨b, hb, rfl⟩ := List.mem_map.1 he
      exact ⟨p, b, hb, rfl⟩
    · rintro ⟨p, b, hb, rfl⟩
      exact ⟨p, (hids p).2 ⟨b, hb⟩, List.mem_map_of_mem hb⟩

/-- An inspection of tables that are there finds nothing wrong if and only if their keys have the
right numbers of bytes. -/
theorem isHealthy_inspect_iff : ts.inspect.isHealthy ↔ ts.IsWellKeyed := by
  refine DelegatedVoting.isHealthy_inspect_iff.trans ⟨?_, fun h => ⟨ts, fun _ => rfl, h⟩⟩
  rintro ⟨ts', htable, h⟩
  rw [isWellKeyed_iff] at h ⊢
  exact fun name => Found.table.inj (htable name) ▸ h name

/-- A recovery of tables whose keys can be read fails if and only if some record is out of order. -/
theorem Keeps.exists_recover_error_iff (h : ts.Keeps c) (rules : Rules) :
    (∃ x, Engine.recover rules ts = .error x) ↔
      ∃ p ∈ c.proposals, ¬ (c.folder p).IsInOrder p := by
  have hkeeps : LawfulStore.Keeps ts c := h
  have hok : (∃ e, Engine.recover rules ts = .ok e) ↔
      ∀ p ∈ c.proposals, (c.folder p).IsInOrder p := by
    simp only [Folder.isInOrder_iff]
    exact Recovery.exists_recover_iff hkeeps
  have herror : (∃ x, Engine.recover rules ts = .error x) ↔
      ¬ ∃ e, Engine.recover rules ts = .ok e := by
    cases Engine.recover rules ts <;> simp
  rw [herror, hok]
  simp only [not_forall, exists_prop]

/-- **An inspection is enough.** It finds nothing wrong with tables if and only if the keys of
proposals and of tallies have sixteen bytes and those of ballots twenty-four. Then every proposal is
listed, the ballots of any proposal can be listed, and these listings together have every ballot
once. So a recovery meets no key that it cannot read, and fails if and only if the records of some
proposal are out of order. -/
theorem inspection_is_enough (ts : Tables) :
    (ts.inspect.isHealthy ↔ (∀ key ∈ ts.proposals, key.length = 16) ∧
      (∀ key ∈ ts.ballots, key.length = 24) ∧ ∀ key ∈ ts.tallies, key.length = 16) ∧
    (ts.inspect.isHealthy →
      (Store.proposals ts = .ok ts.contents.proposals.toList ∧
        ts.proposals.toList = ts.contents.proposals.toList.map fun e => (e.1.bytes, e.2)) ∧
      ((∀ p, Store.ballots p ts = .ok (ts.contents.ballots p).toList) ∧
        ∃ ids : List ProposalId, ids.Nodup ∧
          (∀ p, p ∈ ids ↔ (ts.contents.ballots p).toList ≠ []) ∧
          (ids.flatMap fun p => (ts.contents.ballots p).toList.map fun b =>
            (Key.ballot p b.1, b.2)).Perm ts.ballots.toList) ∧
      ∀ rules, (∃ x, Engine.recover rules ts = .error x) ↔
        ∃ p ∈ ts.contents.proposals, ¬ (ts.contents.folder p).IsInOrder p) := by
  rw [isHealthy_inspect_iff]
  refine ⟨⟨fun h => ⟨h.proposals, h.ballots, h.tallies⟩, fun h => ⟨h.1, h.2.1, h.2.2⟩⟩,
    fun hkeys => ?_⟩
  have h : ts.Keeps ts.contents := keeps_contents_iff.2 hkeys
  refine ⟨⟨h.proposals_eq, h.toList_proposals⟩, ⟨h.ballots_eq, h.exists_perm_ballots⟩,
    fun rules => ?_⟩
  exact h.exists_recover_error_iff rules

/-- Tables of two proposals, one of which has the last of all names and no record. The record of the
other one is empty, so the recovery fails, but all the ballots are listed. -/
theorem inspection_is_enough_of_last_name :
    let p : ProposalId := ⟨.replicate 16 0xFF, rfl⟩
    let q : ProposalId := ⟨.replicate 16 0xFE, rfl⟩
    let ts : Tables := { Tables.empty with
      proposals := (∅ : Table).insert q.bytes []
      ballots := (((∅ : Table).insert (Key.ballot p 7) [1]).insert (Key.ballot q 256) [2]).insert
        (Key.ballot q 1) [3] }
    ts.inspect.isHealthy ∧ Store.ballots p ts = .ok [(7, [1])] ∧
      Store.ballots q ts = .ok [(1, [3]), (256, [2])] ∧
        ∃ x, Engine.recover {} ts = .error x := by
  intro p q ts
  have hhealthy : ts.inspect.isHealthy := by decide +kernel
  obtain ⟨-, ⟨hballots, -⟩, hrecover⟩ := (inspection_is_enough ts).2 hhealthy
  refine ⟨hhealthy, (hballots p).trans ?_, (hballots q).trans ?_, (hrecover {}).2 ⟨q, ?_, ?_⟩⟩
  · exact congrArg Except.ok (by decide +kernel)
  · exact congrArg Except.ok (by decide +kernel)
  · decide +kernel
  · intro horder
    obtain ⟨_, ⟨record, hrecord, hdecode⟩, -⟩ := horder.proposal
    obtain rfl : [] = record := Option.some.inj (Eq.trans (by decide +kernel) hrecord)
    cases hdecode

end Tables

end DelegatedVoting
