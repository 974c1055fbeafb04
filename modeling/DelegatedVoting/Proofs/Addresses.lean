import DelegatedVoting.Gateway.Query
import DelegatedVoting.Gateway.Request
import DelegatedVoting.Identifier
import DelegatedVoting.Proofs.Results
import Mathlib.Tactic.SplitIfs

/-!
# What addresses ask for

A path leads to a route, and a query asks for a page. Both are stated apart from the reading: the
paths of a route are listed, and a query asks for what its pairs say under two keys.

* `Route.LiesAt`, `Route.ofPath?_eq_some_iff`: the paths of a route, and that they lead to it;
* `Query.Gives`: the value that pairs give under a key;
* `Query.AsksFor`, `Query.pageRequest?_eq_some_iff`: the page that a query asks for, and that it is
  the one that is read.
-/

namespace DelegatedVoting.Gateway

/-! ### Numbers -/

/-- A number of 32 bits is read from the texts that write it. -/
theorem map_readBelow_eq_some_iff {s : List Char} {n : UInt32} :
    (Text.Decimal.readBelow UInt32.size s).map UInt32.ofNat = some n ↔
      Text.Decimal.Writes n.toNat s := by
  rw [Option.map_eq_some_iff]
  constructor
  · rintro ⟨m, hm, rfl⟩
    obtain ⟨hwrites, hlt⟩ := Text.Decimal.readBelow_eq_some_iff.1 hm
    rwa [UInt32.toNat_ofNat_of_lt' hlt]
  · intro h
    exact ⟨n.toNat, Text.Decimal.readBelow_eq_some_iff.2 ⟨h, n.toNat_lt⟩, UInt32.ofNat_toNat⟩

/-- A participant is read from the texts that write its number. -/
theorem participant_read?_eq_some_iff {s : List Char} {v : ParticipantId} :
    ParticipantId.read? s = some v ↔ Text.Decimal.Writes v.toNat s := by
  rw [← map_readBelow_eq_some_iff, Option.map_eq_bind]
  rfl

/-! ### Paths -/

namespace Route

/-- The paths that lead to a route. The parts that are left open have no slash, and the last one of
a path is not empty. -/
inductive LiesAt : Route → List Char → Prop
  | root : LiesAt .list "/".toList
  | list : LiesAt .list "/proposals".toList
  | proposal {id : List Char} : '/' ∉ id → id ≠ [] →
    LiesAt (.proposal id) ("/proposals/".toList ++ id)
  | tally {id : List Char} : '/' ∉ id →
    LiesAt (.tally id) ("/proposals/".toList ++ id ++ "/tally".toList)
  | ballots {id voter : List Char} : '/' ∉ id → '/' ∉ voter → voter ≠ [] →
    LiesAt (.ballots id voter) ("/proposals/".toList ++ id ++ "/ballots/".toList ++ voter)
  | propose : LiesAt .propose "/propose".toList
  | vote : LiesAt .vote "/vote".toList
  | delegate : LiesAt .delegate "/delegate".toList
  | finalize : LiesAt .finalize "/finalize".toList
  | health : LiesAt .health "/health".toList
  | metrics : LiesAt .metrics "/metrics".toList

/-- The parts of a text between separators have no separator. -/
theorem not_mem_of_mem_splitOn {a : Char} {s part : List Char} (h : part ∈ s.splitOn a) :
    a ∉ part := by
  induction s generalizing part with
  | nil =>
    obtain rfl : part = [] := by simpa using h
    exact List.not_mem_nil
  | cons c s ih =>
    obtain ⟨first, parts, hparts⟩ := List.exists_cons_of_ne_nil (List.splitOn_ne_nil a s)
    rw [List.splitOn_cons_eq_if_modifyHead, hparts] at h
    rw [hparts] at ih
    split at h
    · rcases List.mem_cons.1 h with rfl | h
      · exact List.not_mem_nil
      · exact ih h
    · rename_i hc
      rw [List.modifyHead_cons] at h
      rcases List.mem_cons.1 h with rfl | h
      · rw [List.mem_cons, not_or]
        exact ⟨fun hac => hc (beq_iff_eq.2 hac.symm), ih List.mem_cons_self⟩
      · exact ih (List.mem_cons_of_mem _ h)

/-- A path leads where its parts lead. -/
theorem ofPath?_intercalate {parts : List (List Char)} (hne : parts ≠ [])
    (hslash : ∀ part ∈ parts, '/' ∉ part) :
    ofPath? ('/' :: ['/'].intercalate parts) = ofParts? parts := by
  show ofParts? ((['/'].intercalate parts).splitOn '/') = _
  rw [List.splitOn_intercalate '/' hslash hne]

/-- Parts lead to a route that lies at the path that they make up. -/
theorem liesAt_of_ofParts? {parts : List (List Char)} {route : Route}
    (hslash : ∀ part ∈ parts, '/' ∉ part) (h : ofParts? parts = some route) :
    route.LiesAt ('/' :: ['/'].intercalate parts) := by
  unfold ofParts? at h
  split at h
  · split_ifs at h with hlist hpropose hvote hdelegate hfinalize hhealth hmetrics <;>
      obtain rfl := Option.some.inj h
    · rcases hlist with rfl | rfl
      · exact .root
      · exact .list
    · subst hpropose
      exact .propose
    · subst hvote
      exact .vote
    · subst hdelegate
      exact .delegate
    · subst hfinalize
      exact .finalize
    · subst hhealth
      exact .health
    · subst hmetrics
      exact .metrics
  · rename_i part id
    split at h
    · rename_i hid
      obtain ⟨rfl, hne⟩ := hid
      obtain rfl := Option.some.inj h
      have hpath := LiesAt.proposal (hslash id (by simp)) hne
      simpa [List.intercalate] using hpath
    · cases h
  · rename_i part id what
    split at h
    · rename_i hwhat
      obtain ⟨rfl, rfl⟩ := hwhat
      obtain rfl := Option.some.inj h
      exact .tally (hslash id (by simp))
    · cases h
  · rename_i part id what voter
    split at h
    · rename_i hvoter
      obtain ⟨rfl, rfl, hne⟩ := hvoter
      obtain rfl := Option.some.inj h
      have hpath := LiesAt.ballots (hslash id (by simp)) (hslash voter (by simp)) hne
      simpa [List.intercalate] using hpath
    · cases h
  · cases h

/-- A path leads to the route that lies at it. -/
theorem LiesAt.ofPath?_eq {path : List Char} {route : Route} (h : route.LiesAt path) :
    ofPath? path = some route := by
  cases h with
  | @proposal id hid hne =>
    have hpath : "/proposals/".toList ++ id = '/' :: ['/'].intercalate ["proposals".toList, id] :=
      by simp [List.intercalate]
    rw [hpath, ofPath?_intercalate (List.cons_ne_nil _ _) (by simp [hid]), ofParts?]
    exact if_pos ⟨rfl, hne⟩
  | @tally id hid =>
    have hpath : "/proposals/".toList ++ id ++ "/tally".toList =
        '/' :: ['/'].intercalate ["proposals".toList, id, "tally".toList] := rfl
    rw [hpath, ofPath?_intercalate (List.cons_ne_nil _ _) (by simp [hid]), ofParts?]
    exact if_pos ⟨rfl, rfl⟩
  | @ballots id voter hid hvoter hne =>
    have hpath : "/proposals/".toList ++ id ++ "/ballots/".toList ++ voter =
        '/' :: ['/'].intercalate ["proposals".toList, id, "ballots".toList, voter] := by
      simp [List.intercalate]
    rw [hpath, ofPath?_intercalate (List.cons_ne_nil _ _) (by simp [hid, hvoter]), ofParts?]
    exact if_pos ⟨rfl, rfl, hne⟩
  | _ => rfl

/-- **A path leads to a route if and only if the route lies at it.** -/
theorem ofPath?_eq_some_iff {path : List Char} {route : Route} :
    ofPath? path = some route ↔ route.LiesAt path := by
  refine ⟨fun h => ?_, LiesAt.ofPath?_eq⟩
  unfold ofPath? at h
  split at h
  · rename_i rest
    have hlies := liesAt_of_ofParts? (fun _ => not_mem_of_mem_splitOn) h
    rwa [List.intercalate_splitOn] at hlies
  · cases h

/-- The methods of a route: whoever wants to change something sends it, and everything else is asked
for, with its content or without. -/
def Takes : Route → Method → Prop
  | .propose, method | .vote, method | .delegate, method | .finalize, method => method = .post
  | _, method => method = .get ∨ method = .head

theorem admits_iff_takes {route : Route} {method : Method} :
    route.admits method = true ↔ route.Takes method := by
  cases route <;> simp [admits, isWrite, Takes]

end Route

/-! ### Queries -/

namespace Query

section Slots

variable {α : Type} {key : String} {spells : α → List Char → Prop} {slot slot' : Option α}
  {pairs : List (List Char × List Char)}

/-- The pairs give a value under a key: exactly one of them has the key, and says the value; or none
has it, and there is no value. -/
def Gives (key : String) (spells : α → List Char → Prop) (pairs : List (List Char × List Char)) :
    Option α → Prop
  | some a => ∃ pair, pairs.filter (·.1 = key.toList) = [pair] ∧ spells a pair.2
  | none => pairs.filter (·.1 = key.toList) = []

/-- What one more pair makes of the value under a key. -/
def Puts (key : String) (spells : α → List Char → Prop) (slot : Option α)
    (pair : List Char × List Char) (slot' : Option α) : Prop :=
  if pair.1 = key.toList then slot = none ∧ ∃ a, spells a pair.2 ∧ slot' = some a else slot' = slot

/-- What pairs make of the value under a key, one after the other. -/
def Takes (key : String) (spells : α → List Char → Prop) :
    Option α → List (List Char × List Char) → Option α → Prop
  | slot, [], slot' => slot' = slot
  | slot, pair :: pairs, slot' =>
    ∃ mid, Puts key spells slot pair mid ∧ Takes key spells mid pairs slot'

/-- A value that is there stays if no pair has the key. -/
theorem takes_some_iff {a : α} : Takes key spells (some a) pairs slot' ↔
    slot' = some a ∧ pairs.filter (·.1 = key.toList) = [] := by
  induction pairs with
  | nil => simp [Takes]
  | cons pair pairs ih =>
    by_cases hkey : pair.1 = key.toList
    · simp [Takes, Puts, hkey]
    · simp [Takes, Puts, hkey, ih]

/-- A value that is not there is the one that the pairs give. -/
theorem takes_none_iff : Takes key spells none pairs slot' ↔ Gives key spells pairs slot' := by
  induction pairs with
  | nil => cases slot' <;> simp [Takes, Gives]
  | cons pair pairs ih =>
    by_cases hkey : pair.1 = key.toList
    · have htakes : Takes key spells none (pair :: pairs) slot' ↔
          ∃ a, spells a pair.2 ∧ Takes key spells (some a) pairs slot' := by
        simp only [Takes, Puts, if_pos hkey, true_and]
        constructor
        · rintro ⟨_, ⟨a, ha, rfl⟩, h⟩
          exact ⟨a, ha, h⟩
        · rintro ⟨a, ha, h⟩
          exact ⟨_, ⟨a, ha, rfl⟩, h⟩
      have hfilter : (pair :: pairs).filter (·.1 = key.toList) =
          pair :: pairs.filter (·.1 = key.toList) := List.filter_cons_of_pos (by simp [hkey])
      rw [htakes]
      simp only [takes_some_iff]
      cases slot' with
      | none => simp [Gives, hfilter]
      | some a =>
        simp only [Gives, hfilter, List.cons.injEq]
        constructor
        · rintro ⟨_, ha, h, hpairs⟩
          cases h
          exact ⟨pair, ⟨rfl, hpairs⟩, ha⟩
        · rintro ⟨_, ⟨rfl, hpairs⟩, ha⟩
          exact ⟨a, ha, rfl, hpairs⟩
    · have hfilter : (pair :: pairs).filter (·.1 = key.toList) =
          pairs.filter (·.1 = key.toList) := List.filter_cons_of_neg (by simp [hkey])
      have hgives : Gives key spells (pair :: pairs) slot' ↔ Gives key spells pairs slot' := by
        cases slot' <;> simp only [Gives, hfilter]
      rw [hgives, ← ih]
      simp only [Takes, Puts, if_neg hkey, exists_eq_left]

end Slots

/-- The cursor that a text spells. -/
def SpellsCursor (cursor : String) (s : List Char) : Prop := s = cursor.toList

/-- The number that a text spells. -/
def SpellsCount (count : UInt32) (s : List Char) : Prop := Text.Decimal.Writes count.toNat s

/-- The query asks for the page: the cursor and the number of items are those that its pairs
give. -/
structure AsksFor (query : List Char) (page : Listing.PageRequest) : Prop where
  cursor : Gives "cursor" SpellsCursor (pairs query) page.cursor
  count : Gives "count" SpellsCount (pairs query) page.count

/-- One more pair puts the cursor, or the number of items. -/
theorem addPair_eq_some_iff {r r' : Listing.PageRequest} {pair : List Char × List Char} :
    addPair r pair = some r' ↔ Puts "cursor" SpellsCursor r.cursor pair r'.cursor ∧
      Puts "count" SpellsCount r.count pair r'.count := by
  obtain ⟨cursor, count⟩ := r
  obtain ⟨cursor', count'⟩ := r'
  have hne : "cursor".toList ≠ "count".toList := by decide
  unfold addPair Puts SpellsCursor SpellsCount
  by_cases hcursor : pair.1 = "cursor".toList
  · have hcount : pair.1 ≠ "count".toList := hcursor ▸ hne
    rw [if_pos hcursor, if_pos hcursor, if_neg hcount]
    cases cursor with
    | some => simp
    | none =>
      simp only [Option.isSome_none, Bool.false_eq_true, if_false, Option.some.injEq,
        Listing.PageRequest.mk.injEq, true_and]
      constructor
      · rintro ⟨rfl, rfl⟩
        exact ⟨⟨_, String.toList_ofList.symm, rfl⟩, rfl⟩
      · rintro ⟨⟨a, ha, rfl⟩, rfl⟩
        exact ⟨by rw [ha, String.ofList_toList], rfl⟩
  · rw [if_neg hcursor, if_neg hcursor]
    by_cases hcount : pair.1 = "count".toList
    · rw [if_pos hcount, if_pos hcount]
      cases count with
      | some => simp
      | none =>
        simp only [Option.isSome_none, Bool.false_eq_true, if_false, Option.map_eq_some_iff,
          Listing.PageRequest.mk.injEq, true_and, ← map_readBelow_eq_some_iff]
        constructor
        · rintro ⟨n, hn, rfl, rfl⟩
          exact ⟨rfl, _, ⟨n, hn, rfl⟩, rfl⟩
        · rintro ⟨rfl, _, ⟨n, hn, rfl⟩, rfl⟩
          exact ⟨n, hn, rfl, rfl⟩
    · rw [if_neg hcount, if_neg hcount]
      simp [eq_comm]

/-- Pairs put the cursor and the number of items. -/
theorem foldlM_addPair_eq_some_iff {pairs : List (List Char × List Char)}
    {r r' : Listing.PageRequest} :
    pairs.foldlM addPair r = some r' ↔ Takes "cursor" SpellsCursor r.cursor pairs r'.cursor ∧
      Takes "count" SpellsCount r.count pairs r'.count := by
  induction pairs generalizing r with
  | nil =>
    obtain ⟨cursor, count⟩ := r
    obtain ⟨cursor', count'⟩ := r'
    simp [Takes, eq_comm]
  | cons pair pairs ih =>
    rw [List.foldlM_cons, Option.bind_eq_bind, Option.bind_eq_some_iff]
    simp only [addPair_eq_some_iff, ih, Takes]
    constructor
    · rintro ⟨mid, ⟨hcursor, hcount⟩, hcursors, hcounts⟩
      exact ⟨⟨_, hcursor, hcursors⟩, _, hcount, hcounts⟩
    · rintro ⟨⟨cursor, hcursor, hcursors⟩, count, hcount, hcounts⟩
      exact ⟨⟨cursor, count⟩, ⟨hcursor, hcount⟩, hcursors, hcounts⟩

/-- **The page that is read from a query is the one that it asks for.** -/
theorem pageRequest?_eq_some_iff {query : List Char} {page : Listing.PageRequest} :
    pageRequest? query = some page ↔ AsksFor query page := by
  rw [pageRequest?, foldlM_addPair_eq_some_iff, takes_none_iff, takes_none_iff]
  exact ⟨fun h => ⟨h.1, h.2⟩, fun h => ⟨h.1, h.2⟩⟩

end Query

end DelegatedVoting.Gateway
