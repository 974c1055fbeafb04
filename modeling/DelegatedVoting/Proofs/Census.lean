import DelegatedVoting.Proofs.OpenCount
import DelegatedVoting.Proofs.Writes
import DelegatedVoting.Store.Integrity
import DelegatedVoting.Store.Schema

/-!
# What an inspection counts

Somebody who looks over the tables sees keys, and cannot tell what the records are. What is counted
there is all the same what has been done: no key is written twice by mistake and none has the wrong
number of bytes. So there is an entry for each proposal, for each ballot that has been accepted and
for each result, and one note.

* `Table.Holds.size_eq`, `TableName.badKeys_eq_zero`: the entries of a table that holds the values
  of a function;
* `Tables.opened_of_opened`: tables that have been opened may be opened again;
* `Registry.Mirrored.size_proposals`, `size_tallies`: the entries that a registry accounts for;
* `Session.accepted`: the events of a run that are accepted;
* `Tables.Grown`, `Session.Goes.grown`, `Sound.grown_run`: what an event and a run add to tables;
* `Session.inspect_run_take`: what an inspection counts at any time of a run.
-/

namespace DelegatedVoting

open Packed

/-! ### The entries of a table -/

section Table

variable {κ : Type} {key : κ → Bytes} {f : κ → Option Bytes} {t : Table} {name : TableName}

/-- A table has as many entries as the function has values. -/
theorem Table.Holds.size_eq (h : t.Holds key f) (hkey : key.Injective) {l : List κ} (hl : l.Nodup)
    (hmem : ∀ x, x ∈ l ↔ ∃ record, f x = some record) : t.size = l.length := by
  have hperm : t.keys.Perm (l.map key) := by
    refine (List.perm_ext_iff_of_nodup Std.ExtTreeMap.nodup_keys (hl.map hkey)).2 fun k => ?_
    rw [Std.ExtTreeMap.mem_keys, Maps.mem_iff, List.mem_map]
    constructor
    · rintro ⟨record, hrecord⟩
      obtain ⟨x, hx, hvalue⟩ := (h k record).1 hrecord
      exact ⟨x, (hmem x).2 ⟨record, hvalue⟩, hx⟩
    · rintro ⟨x, hx, rfl⟩
      rw [h.getElem?_eq hkey]
      exact (hmem x).1 hx
  rw [← Std.ExtTreeMap.length_keys, hperm.length_eq, List.length_map]

/-- No key has the wrong number of bytes if all the keys have the number that is expected. -/
theorem TableName.badKeys_eq_zero (h : t.Holds key f) {length : Nat}
    (hname : name.keyLength = some length) (hlength : ∀ x, (key x).length = length) :
    name.badKeys t = 0 := by
  rw [badKeys, hname]
  refine List.countP_eq_zero.2 fun k hk => ?_
  obtain ⟨record, hrecord⟩ := Maps.mem_iff.1 (Std.ExtTreeMap.mem_keys.1 hk)
  obtain ⟨x, rfl, -⟩ := (h k record).1 hrecord
  simp [hlength x]

theorem Table.size_insert_of_none {k : Bytes} (h : t[k]? = none) (value : Bytes) :
    (t.insert k value).size = t.size + 1 := by
  rw [Std.ExtTreeMap.size_insert, if_neg]
  exact fun hk => Maps.getElem?_eq_none_iff.1 h (Std.ExtTreeMap.mem_iff_contains.2 hk)

theorem Table.size_insert_of_some {k record : Bytes} (h : t[k]? = some record) (value : Bytes) :
    (t.insert k value).size = t.size := by
  rw [Std.ExtTreeMap.size_insert, if_pos]
  exact Std.ExtTreeMap.mem_iff_contains.1 (Maps.mem_iff.2 ⟨record, h⟩)

end Table

/-! ### Tables that are opened again -/

namespace Tables

variable {ts ts' : Tables} {c : Contents}

theorem schemaVersion_congr (h : ts.notes = ts'.notes) : ts.schemaVersion = ts'.schemaVersion := by
  unfold schemaVersion
  rw [h]

theorem versionKey_fits : 1 ≤ (Text.Utf8.encode versionKey).length ∧
    (Text.Utf8.encode versionKey).length ≤ Table.maxKeyLength := by decide

/-- The tables after the version has been noted. -/
theorem setSchemaVersion_eq (version : UInt32) (ts : Tables) : ts.setSchemaVersion version =
    .ok { ts with
      notes := ts.notes.insert (Text.Utf8.encode versionKey)
        (Bytes.littleEndian 4 version.toNat) } := by
  rw [setSchemaVersion, putNote, put_eq_ok versionKey_fits]
  rfl

/-- The version that has been noted is the version of the tables. -/
theorem schemaVersion_setSchemaVersion {version : UInt32}
    (h : ts.setSchemaVersion version = .ok ts') : ts'.schemaVersion = .ok version := by
  rw [setSchemaVersion_eq] at h
  cases h
  have hread : UInt32.ofNat (Bytes.ofLittleEndian (Bytes.littleEndian 4 version.toNat)) = version :=
    by simp
  rw [schemaVersion, get_eq_ok versionKey_fits.1, Maps.getElem?_insert, if_pos rfl, ok_bind]
  dsimp only
  rw [if_pos (Bytes.length_littleEndian 4 _), hread]
  rfl

/-- Nothing is done to tables of the current version when they are opened. -/
theorem opened_of_schemaVersion (h : ts.schemaVersion = .ok currentVersion) :
    ts.opened = .ok ts := by
  unfold opened migrate
  rw [h]
  rfl

theorem schemaVersion_of_opened (h : ts.opened = .ok ts') :
    ts'.schemaVersion = .ok currentVersion := by
  obtain ⟨version, hversion, h⟩ := bind_eq_ok_iff.1 h
  split at h
  · rename_i hcurrent
    cases h
    rw [← hcurrent]
    exact mapError_eq_ok_iff.1 hversion
  · split at h
    · cases h
    · exact schemaVersion_setSchemaVersion (mapError_eq_ok_iff.1 h)

/-- **Tables that have been opened may be opened again,** whatever has been done to the other tables
meanwhile. Nothing changes. -/
theorem opened_of_opened {ts'' : Tables} (h : ts.opened = .ok ts')
    (hnotes : ts''.notes = ts'.notes) : ts''.opened = .ok ts'' :=
  opened_of_schemaVersion ((schemaVersion_congr hnotes).trans (schemaVersion_of_opened h))

/-- New tables can be opened. They are given a note, and nothing else. -/
theorem opened_empty : empty.opened = .ok { empty with
    notes := (∅ : Table).insert (Text.Utf8.encode versionKey)
      (Bytes.littleEndian 4 currentVersion.toNat) } := by
  rw [opened, migrate, schemaVersion, get_eq_ok versionKey_fits.1]
  show asOpening (empty.setSchemaVersion currentVersion) = _
  rw [setSchemaVersion_eq]
  rfl

theorem exists_notes_of_opened_empty (h : empty.opened = .ok ts) :
    ∃ notes : Table, ts = { empty with notes } ∧ notes.size = 1 := by
  rw [opened_empty] at h
  refine ⟨_, (Except.ok.inj h).symm, ?_⟩
  rw [Table.size_insert_of_none Std.ExtTreeMap.getElem?_empty, Std.ExtTreeMap.size_empty]

end Tables

/-! ### What is found -/

/-- **Nothing is wrong with tables that keep anything,** and all their entries are counted. -/
theorem Tables.Keeps.inspect_eq {ts : Tables} {c : Contents} (h : ts.Keeps c) :
    ts.inspect = ⟨[(.ballots, ts.ballots.size), (.notes, ts.notes.size),
      (.proposals, ts.proposals.size), (.tallies, ts.tallies.size)], []⟩ := by
  have hproposals : TableName.proposals.badKeys ts.proposals = 0 :=
    TableName.badKeys_eq_zero h.proposals rfl fun p => p.length_bytes
  have hballots : TableName.ballots.badKeys ts.ballots = 0 :=
    TableName.badKeys_eq_zero h.ballots rfl fun x => Key.length_ballot x.1 x.2
  have htallies : TableName.tallies.badKeys ts.tallies = 0 :=
    TableName.badKeys_eq_zero h.tallies rfl fun p => p.length_bytes
  have hnotes : TableName.notes.badKeys ts.notes = 0 := rfl
  simp [inspect, DelegatedVoting.inspect, TableName.all, TableName.defects, Found.count, table,
    hproposals, hballots, htallies, hnotes]

/-! ### What a registry accounts for -/

namespace Registry.Mirrored

variable {r : Registry} {c : Contents} {ts : Tables}

/-- The tables have an entry for each proposal that is listed. -/
theorem size_proposals (h : r.Mirrored c) (hkeeps : ts.Keeps c) :
    ts.proposals.size = r.list.length := by
  have hnodup : r.slots.keys.Nodup := Std.ExtTreeMap.nodup_keys
  rw [h.perm_list.length_eq, List.length_map, ← List.length_map (f := Prod.fst),
    Std.ExtTreeMap.map_fst_toList_eq_keys]
  refine hkeeps.proposals.size_eq Tables.bytes_injective hnodup fun p => ?_
  rw [Std.ExtTreeMap.mem_keys, h.mem_iff, Maps.mem_iff]

/-- The store keeps a result of the proposals that have been finalized. -/
theorem exists_tally_iff (h : r.Mirrored c) (p : ProposalId) :
    (∃ record, c.tallies p = some record) ↔
      ∃ slot, r.slots[p]? = some slot ∧ slot.proposal.status = .finalized := by
  cases hslot : r.slots[p]? with
  | none =>
    have htally : c.tallies p = none := congrArg Folder.tally (h.absent hslot)
    simp [htally]
  | some slot =>
    have htally : c.tallies p = _ := (h.mirrors hslot).tally_eq
    simp only [htally, Option.some.injEq, exists_eq_left', Proposal.status_eq_finalized_iff,
      (h.mirrors hslot).isOpen_iff]
    cases slot.proposal.result <;> simp

/-- The tables have an entry for the result of each proposal that has been finalized. -/
theorem size_tallies (h : r.Mirrored c) (hkeeps : ts.Keeps c) :
    ts.tallies.size = r.list.countP fun q => q.status = .finalized := by
  have hnodup : (r.slots.toList.map Prod.fst).Nodup := by
    rw [Std.ExtTreeMap.map_fst_toList_eq_keys]
    exact Std.ExtTreeMap.nodup_keys
  rw [h.perm_list.countP_eq, List.countP_map, List.countP_eq_length_filter,
    ← List.length_map (f := Prod.fst)]
  refine hkeeps.tallies.size_eq Tables.bytes_injective ?_ fun p => ?_
  · exact hnodup.sublist (List.filter_sublist.map Prod.fst)
  · rw [h.exists_tally_iff, List.mem_map]
    simp only [List.mem_filter, Maps.mem_toList_iff]
    constructor
    · rintro ⟨e, ⟨he, hstatus⟩, rfl⟩
      exact ⟨e.2, he, by simpa using hstatus⟩
    · rintro ⟨slot, hslot, hstatus⟩
      exact ⟨(p, slot), ⟨hslot, by simpa using hstatus⟩, rfl⟩

end Registry.Mirrored

/-! ### What events add -/

namespace Session

/-- The event asks for a new proposal. -/
def Event.isCreation : Event → Bool
  | .propose .. => true
  | .create .. => true
  | _ => false

/-- The event would close a proposal. -/
def Event.isClosing : Event → Bool
  | .finalize .. => true
  | .commit .. => true
  | _ => false

/-- The event, if it is accepted. -/
def Event.ifAccepted (event : Event) (answer : Except Refusal Reply) : List Event :=
  if answer.isOk then [event] else []

/-- The events of a run that are accepted. -/
def accepted {σ : Type} [Store σ] [LawfulStore σ] : Session σ → List Event → List Event
  | _, [] => []
  | s, event :: events => event.ifAccepted (s.respond event).1 ++ (s.step event).accepted events

end Session

/-- What has become of tables while events were accepted. A new proposal, a ballot and a result have
made an entry each, and the notes have been left alone. -/
structure Tables.Grown (ts : Tables) (accepted : List Session.Event) (ts' : Tables) : Prop where
  proposals : ts'.proposals.size = ts.proposals.size + accepted.countP (·.isCreation)
  ballots : ts'.ballots.size = ts.ballots.size + accepted.countP (·.IsBallot)
  tallies : ts'.tallies.size = ts.tallies.size + accepted.countP (·.isClosing)
  notes_eq : ts'.notes = ts.notes

namespace Tables.Grown

variable {ts ts' ts'' : Tables} {accepted more : List Session.Event}

theorem refl (ts : Tables) : ts.Grown [] ts := ⟨rfl, rfl, rfl, rfl⟩

theorem trans (h : ts.Grown accepted ts') (h' : ts'.Grown more ts'') :
    ts.Grown (accepted ++ more) ts'' where
  proposals := by rw [h'.proposals, h.proposals, List.countP_append, Nat.add_assoc]
  ballots := by rw [h'.ballots, h.ballots, List.countP_append, Nat.add_assoc]
  tallies := by rw [h'.tallies, h.tallies, List.countP_append, Nat.add_assoc]
  notes_eq := h'.notes_eq.trans h.notes_eq

end Tables.Grown

namespace Session

variable {s s' : Session Tables} {c : Contents} {event : Event} {events : List Event}
  {used : List ProposalId} {answer : Except Refusal Reply}

/-- **What an event adds to the tables.** -/
theorem Goes.grown (hgoes : s.Goes event answer s') (h : Sound used s c)
    (hfresh : ∀ p ∈ s.generates event, p ∉ used) :
    s.store.Grown (event.ifAccepted answer) s'.store := by
  have hkeeps : s.store.Keeps c := h.keeps
  cases hgoes with
  | refused => exact .refl _
  | burned => exact .refl _
  | created _ fresh v text store hcreates hput =>
    obtain rfl := Tables.eq_written (w := .proposal fresh _) hput
    -- the name is new, so no record stands under it
    have hnone := h.slots_eq_none (hfresh fresh (by simp [hcreates.generates_eq]))
    have hnew : s.store.proposals[fresh.bytes]? = none :=
      (hkeeps.proposals.getElem?_eq Tables.bytes_injective).trans
        (congrArg Folder.proposal (h.mirrored.absent hnone))
    rcases hcreates with ⟨rfl, -⟩ | rfl <;>
      exact ⟨Table.size_insert_of_none hnew _, rfl, rfl, rfl⟩
  | cast _ p action slot store hcasts hslot hopen hput =>
    obtain rfl := Tables.eq_written (w := .ballot p _ _) hput
    -- all the ballots of the proposal have smaller numbers
    obtain ⟨records, hlogged⟩ := (h.mirrored.mirrors hslot).logged
    have hnew : s.store.ballots[Key.ballot p slot.book.nextSeq]? = none :=
      (hkeeps.ballots.getElem?_eq (x := (p, slot.book.nextSeq)) Tables.ballot_injective).trans
        (Maps.getElem?_eq_none_iff.2 fun hmem => UInt64.lt_irrefl _ (hlogged.lt_nextSeq hmem))
    rcases hcasts with ⟨v, isYes, rfl, -⟩ | ⟨v, d, rfl, -, -⟩ <;>
      exact ⟨rfl, Table.size_insert_of_none hnew _, rfl, rfl⟩
  | closed _ p slot result reply store hcloses hslot hopen hput =>
    rw [h.mirrored.id_eq hslot] at hput
    obtain rfl := Tables.eq_written (w := .finalization p _ _) hput
    -- the record of the proposal is replaced, and an open proposal has no result yet
    have hmirrors := h.mirrored.mirrors hslot
    have hold := (hkeeps.proposals.getElem?_eq Tables.bytes_injective).trans hmirrors.proposal_eq
    have hnone : c.tallies p = none := by
      rw [show c.tallies p = _ from hmirrors.tally_eq, hmirrors.isOpen_iff.1 hopen]
      rfl
    have hnew := (hkeeps.tallies.getElem?_eq Tables.bytes_injective).trans hnone
    rcases hcloses with ⟨rfl, -⟩ | ⟨v, rfl, -⟩ <;>
      exact ⟨Table.size_insert_of_some hold _, rfl, Table.size_insert_of_none hnew _, rfl⟩
  | clock => exact ⟨rfl, rfl, rfl, rfl⟩
  | refuseWrites => exact ⟨rfl, rfl, rfl, rfl⟩
  | restarted => exact ⟨rfl, rfl, rfl, rfl⟩

/-- **What a run adds to the tables.** -/
theorem Sound.grown_run (h : Sound used s c) (horderly : Orderly used s events) :
    s.store.Grown (s.accepted events) (s.run events).store := by
  induction events generalizing s c used with
  | nil => exact .refl _
  | cons event events ih =>
    obtain ⟨hfits, hroom, hfresh⟩ := horderly.head
    obtain ⟨c', h', -⟩ := h.step hfits hroom hfresh
    exact ((s.respond_goes event).grown h hfresh).trans (ih h' horderly.tail)

/-- **An inspection counts what has been done,** at any time of a run over tables that were new when
they were opened. Nothing is wrong with the tables. There is an entry for each proposal, for each
ballot that has been accepted and for each result, and one note. The proposals are those that have
been created, and the results are those of the proposals that have been closed. The tables may be
opened again, which changes nothing. -/
theorem inspect_run_take {store : Tables} (hopened : Tables.empty.opened = .ok store)
    {rules : Rules} {now : Timestamp} {events : List Event} (hfits : ∀ event ∈ events, event.Fits)
    (htaken : (start rules store now).numbersTaken events < 2 ^ 64 - 2)
    (hnodup : ((start rules store now).generated events).Nodup) (n : Nat) :
    let live := (start rules store now).run (events.take n)
    let accepted := (start rules store now).accepted (events.take n)
    let finalized := live.engine.list.countP fun q => q.status = .finalized
    live.store.inspect = ⟨[(.ballots, accepted.countP (·.IsBallot)), (.notes, 1),
        (.proposals, live.engine.count), (.tallies, finalized)], []⟩ ∧
      live.store.inspect.isHealthy ∧
      live.engine.count = live.engine.list.length ∧
      live.engine.count = accepted.countP (·.isCreation) ∧
      finalized = accepted.countP (·.isClosing) ∧
      live.store.opened = .ok live.store := by
  intro live accepted finalized
  have hnew := hopened
  obtain ⟨notes, rfl, hnotes⟩ := Tables.exists_notes_of_opened_empty hnew
  have hempty : LawfulStore.Keeps { Tables.empty with notes } .empty := Tables.keeps_empty notes
  have hstart := sound_start hempty rules now
  have horderly : Orderly [] (start rules { Tables.empty with notes } now)
      (events.take n ++ events.drop n) := by
    rw [List.take_append_drop]
    exact orderly_start hempty hfits htaken hnodup
  -- what the tables keep is what is in memory, and what has been added to them is what was accepted
  obtain ⟨c, hlive⟩ := hstart.sound_run horderly.append.1
  have hkeeps : live.store.Keeps c := hlive.keeps
  have hgrown := hstart.grown_run horderly.append.1
  have hcount : live.engine.list.length = live.engine.count := hlive.mirrored.isPlaced.length_list
  have hproposals : live.store.proposals.size = live.engine.count :=
    (hlive.mirrored.size_proposals hkeeps).trans hcount
  have htallies : live.store.tallies.size = finalized := hlive.mirrored.size_tallies hkeeps
  have hballots : live.store.ballots.size = accepted.countP (·.IsBallot) :=
    hgrown.ballots.trans (Nat.zero_add _)
  have hinspect : live.store.inspect = _ := hkeeps.inspect_eq
  rw [hballots, show live.store.notes = notes from hgrown.notes_eq, hnotes, hproposals,
    htallies] at hinspect
  refine ⟨hinspect, by rw [hinspect]; rfl, hcount.symm, ?_, ?_, ?_⟩
  · exact hproposals.symm.trans (hgrown.proposals.trans (Nat.zero_add _))
  · exact htallies.symm.trans (hgrown.tallies.trans (Nat.zero_add _))
  · exact Tables.opened_of_opened hopened hgrown.notes_eq

/-- Two proposals, one of which is closed, with ballots before and after a restart. Four calls are
refused: a blank statement, a delegation to oneself, a ballot that comes after the result, and a
second result. -/
theorem inspect_run_take_of_refusals :
    let p : ProposalId := ⟨.replicate 16 1, rfl⟩
    let q : ProposalId := ⟨.replicate 16 2, rfl⟩
    let r : ProposalId := ⟨.replicate 16 3, rfl⟩
    let events : List Event := [.create p 1 "tea", .vote p 2 true, .propose r 1 "",
      .delegate p 3 2, .delegate p 3 3, .finalize p 1, .vote p 4 true, .restart {},
      .create q 1 "cake", .vote q 2 false, .finalize p 1]
    ∃ store, Tables.empty.opened = .ok store ∧
      let live := (start {} store 0).run events
      live.store.inspect = ⟨[(.ballots, 3), (.notes, 1), (.proposals, 2), (.tallies, 1)], []⟩ ∧
        live.store.inspect.isHealthy ∧ live.store.opened = .ok live.store := by
  intro p q r events
  refine ⟨_, Tables.opened_empty, ?_⟩
  have hevents : ∀ event ∈ events, event.Fits := by
    simp [events, Event.Fits]
    decide
  obtain ⟨hinspect, hhealthy, -, hcount, hfinalized, hopened⟩ :=
    @inspect_run_take _ Tables.opened_empty {} 0 events hevents
      ((numbersTaken_le_length _ _).trans_lt (by decide))
      ((generated_sublist _ _).nodup (by decide)) events.length
  rw [List.take_length] at hinspect hhealthy hcount hfinalized hopened
  refine ⟨hinspect.trans ?_, hhealthy, hopened⟩
  rw [hcount, hfinalized]
  decide +kernel

end Session

end DelegatedVoting
