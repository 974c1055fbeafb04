import DelegatedVoting.Proofs.Writes

/-!
# What stores answer

A store in memory and a store of tables cannot be told apart by what they are asked: as long as
writes are not refused, both give the same answers, and what is read is what has been written last.

* `Store.Request`, `Store.Answer`, `Store.answers`: what can be asked of a store, and the answers;
* `Store.latest`: what has been written last;
* `Contents.ofWrites`: what is kept after writes, with one lemma for each way to look it up;
* `Store.Tells`: a store tells what has been written last;
* `Store.Serves.answers_eq`: stores that keep the same give the same answers;
* `Store.tables_answer_as_memory`: the tables and a store in memory.
-/

namespace DelegatedVoting

open SwitchedStore

/-! ### Requests -/

namespace Store

/-- What can be asked of a store. -/
inductive Request
  | write (w : Write)
  | proposal (p : ProposalId)
  | proposals
  | ballots (p : ProposalId)
  | tally (p : ProposalId)

/-- What a store answers. -/
inductive Answer
  | done
  | record (record : Bytes)
  | records (records : List (ProposalId × Bytes))
  | ballots (ballots : List (UInt64 × Bytes))
  | tally (tally : Option Bytes)
  deriving DecidableEq

/-- The write that is asked for, if one is. -/
def Request.write? : Request → Option Write
  | .write w => some w
  | _ => none

/-- The writes that are asked for, in their order. -/
def writes (requests : List Request) : List Write := requests.filterMap Request.write?

theorem writes_cons (request : Request) (requests : List Request) :
    writes (request :: requests) = request.write?.toList ++ writes requests := by
  rw [writes, List.filterMap_cons]
  cases request.write? <;> rfl

variable {σ : Type} [Store σ]

/-- The answer to a request, and the store after it. -/
def ask (s : σ) : Request → Except StoreError Answer × σ
  | .write w =>
    match w.perform s with
    | .ok s' => (.ok .done, s')
    | .error x => (.error x, s)
  | .proposal p => (.record <$> Store.proposal p s, s)
  | .proposals => (.records <$> Store.proposals s, s)
  | .ballots p => (.ballots <$> Store.ballots p s, s)
  | .tally p => (.tally <$> Store.tally p s, s)

/-- The answers to requests, one after the other. -/
def answers : σ → List Request → List (Except StoreError Answer)
  | _, [] => []
  | s, request :: requests => (ask s request).1 :: answers (ask s request).2 requests

/-- The store after requests. -/
def after (s : σ) (requests : List Request) : σ :=
  requests.foldl (fun s request => (ask s request).2) s

end Store

/-! ### What has been written last -/

namespace Write

/-- The record of a proposal that a write keeps. -/
def record? (p : ProposalId) : Write → Option Bytes
  | .proposal q record => if q = p then some record else none
  | .ballot .. => none
  | .finalization q record _ => if q = p then some record else none

/-- The ballot under a number that a write keeps. -/
def ballot? (p : ProposalId) (seq : UInt64) : Write → Option Bytes
  | .ballot q n record => if q = p ∧ n = seq then some record else none
  | _ => none

/-- The tally that a write keeps. -/
def tally? (p : ProposalId) : Write → Option Bytes
  | .finalization q _ tally => if q = p then some tally else none
  | _ => none

end Write

namespace Store

/-- What the last of the writes keeps that keeps something of a kind. -/
def latest (kept? : Write → Option Bytes) (ws : List Write) : Option Bytes :=
  ws.reverse.findSome? kept?

variable {kept? : Write → Option Bytes} {ws : List Write} {w : Write}

theorem latest_nil : latest kept? [] = none := rfl

theorem latest_append_singleton : latest kept? (ws ++ [w]) = (kept? w).or (latest kept? ws) := by
  rw [latest, List.reverse_append, List.reverse_singleton, List.singleton_append,
    List.findSome?_cons]
  cases kept? w <;> rfl

end Store

namespace Contents

variable {ws : List Write} {p : ProposalId} {seq : UInt64}

/-- What is kept after writes. -/
def ofWrites (ws : List Write) : Contents := ws.foldl (fun c w => w.amend c) .empty

theorem ofWrites_append_singleton (w : Write) : ofWrites (ws ++ [w]) = w.amend (ofWrites ws) := by
  simp [ofWrites]

theorem getElem?_proposals_ofWrites :
    (ofWrites ws).proposals[p]? = Store.latest (Write.record? p) ws := by
  induction ws using List.reverseRecOn with
  | nil => simp [ofWrites, empty, Store.latest_nil]
  | append_singleton ws w ih =>
    rw [ofWrites_append_singleton, Store.latest_append_singleton, ← ih]
    cases w with
    | proposal q record =>
      show ((ofWrites ws).proposals.insert q record)[p]? = _
      rw [Maps.getElem?_insert, Write.record?]
      split <;> rfl
    | ballot => rfl
    | finalization q record tally =>
      show ((ofWrites ws).proposals.insert q record)[p]? = _
      rw [Maps.getElem?_insert, Write.record?]
      split <;> rfl

theorem getElem?_ballots_ofWrites :
    ((ofWrites ws).ballots p)[seq]? = Store.latest (Write.ballot? p seq) ws := by
  induction ws using List.reverseRecOn with
  | nil => simp [ofWrites, empty, Store.latest_nil]
  | append_singleton ws w ih =>
    rw [ofWrites_append_singleton, Store.latest_append_singleton, ← ih]
    cases w with
    | proposal => rfl
    | ballot q n record =>
      show (Function.update (ofWrites ws).ballots q
        (((ofWrites ws).ballots q).insert n record) p)[seq]? = _
      rw [Write.ballot?, Function.update_apply]
      by_cases hp : p = q
      · subst hp
        rw [if_pos rfl, Maps.getElem?_insert]
        by_cases hn : n = seq <;> simp [hn]
      · rw [if_neg hp, if_neg fun h => hp h.1.symm]
        rfl
    | finalization => rfl

theorem tallies_ofWrites : (ofWrites ws).tallies p = Store.latest (Write.tally? p) ws := by
  induction ws using List.reverseRecOn with
  | nil => rfl
  | append_singleton ws w ih =>
    rw [ofWrites_append_singleton, Store.latest_append_singleton, ← ih]
    cases w with
    | proposal => rfl
    | ballot => rfl
    | finalization q record tally =>
      show Function.update (ofWrites ws).tallies q (some tally) p = _
      rw [Write.tally?, Function.update_apply]
      simp only [eq_comm]
      split <;> rfl

end Contents

/-! ### What is read -/

namespace Store

variable {σ τ : Type} [Store σ] [Store τ]

/-- A store tells what has been written last, each listing in ascending order. -/
structure Tells (s : σ) (ws : List Write) : Prop where
  proposal_eq : ∀ p, Store.proposal p s =
    match latest (Write.record? p) ws with
    | some record => .ok record
    | none => .error (.notFound ("proposal " ++ toString p))
  tally_eq : ∀ p, Store.tally p s = .ok (latest (Write.tally? p) ws)
  proposals : ∃ l, Store.proposals s = .ok l ∧ (l.Pairwise fun a b => compare a.1 b.1 = .lt) ∧
    ∀ p record, (p, record) ∈ l ↔ latest (Write.record? p) ws = some record
  ballots : ∀ p, ∃ l, Store.ballots p s = .ok l ∧ (l.Pairwise fun a b => a.1 < b.1) ∧
    ∀ seq record, (seq, record) ∈ l ↔ latest (Write.ballot? p seq) ws = some record
  /-- A finalization is seen in both of its records. -/
  finalization : ∀ p record tally, ws.getLast? = some (.finalization p record tally) →
    Store.proposal p s = .ok record ∧ Store.tally p s = .ok (some tally)

variable [LawfulStore σ] [LawfulStore τ]

theorem tells_of_keeps {s : σ} {ws : List Write} (h : LawfulStore.Keeps s (.ofWrites ws)) :
    Tells s ws where
  proposal_eq p := by
    have hproposal := LawfulStore.proposal_eq p h
    rw [Contents.getElem?_proposals_ofWrites] at hproposal
    cases hlatest : latest (Write.record? p) ws <;> rw [hproposal, hlatest]
  tally_eq p := by rw [LawfulStore.tally_eq p h, Contents.tallies_ofWrites]
  proposals := by
    refine ⟨_, LawfulStore.proposals_eq h, Maps.sorted_toList _, fun p record => ?_⟩
    rw [Maps.mem_toList_iff, Contents.getElem?_proposals_ofWrites]
  ballots p := by
    refine ⟨_, LawfulStore.ballots_eq p h,
      (Maps.sorted_toList _).imp fun hlt => Std.compare_eq_lt.1 hlt, fun seq record => ?_⟩
    rw [Maps.mem_toList_iff, Contents.getElem?_ballots_ofWrites]
  finalization p record tally hlast := by
    obtain ⟨front, rfl⟩ := List.getLast?_eq_some_iff.1 hlast
    rw [LawfulStore.proposal_eq p h, LawfulStore.tally_eq p h,
      Contents.getElem?_proposals_ofWrites, Contents.tallies_ofWrites, latest_append_singleton,
      latest_append_singleton, Write.record?, Write.tally?, if_pos rfl, if_pos rfl]
    exact ⟨rfl, rfl⟩

/-! ### One request after the other -/

/-- What a store answers that keeps something and accepts writes. -/
def answer (c : Contents) : Request → Except StoreError Answer
  | .write _ => .ok .done
  | .proposal p =>
    match c.proposals[p]? with
    | some record => .ok (.record record)
    | none => .error (.notFound ("proposal " ++ toString p))
  | .proposals => .ok (.records c.proposals.toList)
  | .ballots p => .ok (.ballots (c.ballots p).toList)
  | .tally p => .ok (.tally (c.tallies p))

/-- A store accepts writes, and keeps what has been written. -/
structure Serves [SwitchedStore σ] (s : σ) (ws : List Write) : Prop where
  keeps : LawfulStore.Keeps s (.ofWrites ws)
  obstacle?_eq : obstacle? s = none

variable [SwitchedStore σ] [SwitchedStore τ] {s : σ} {t : τ} {ws : List Write}

theorem Serves.ask (h : Serves s ws) (request : Request) :
    (ask s request).1 = answer (.ofWrites ws) request ∧
      Serves (ask s request).2 (ws ++ request.write?.toList) := by
  have hread : Serves s (ws ++ []) := by rwa [List.append_nil]
  cases request with
  | write w =>
    obtain ⟨s', hs'⟩ := w.exists_perform h.obstacle?_eq
    rw [Store.ask, hs']
    refine ⟨rfl, ?_, (obstacle?_eq_of_perform hs').trans h.obstacle?_eq⟩
    show LawfulStore.Keeps s' (.ofWrites (ws ++ [w]))
    rw [Contents.ofWrites_append_singleton]
    exact Write.keeps_amend h.keeps hs'
  | proposal p =>
    refine ⟨?_, hread⟩
    rw [Store.ask, LawfulStore.proposal_eq p h.keeps, answer]
    cases (Contents.ofWrites ws).proposals[p]? <;> rfl
  | proposals =>
    refine ⟨?_, hread⟩
    rw [Store.ask, LawfulStore.proposals_eq h.keeps]
    rfl
  | ballots p =>
    refine ⟨?_, hread⟩
    rw [Store.ask, LawfulStore.ballots_eq p h.keeps]
    rfl
  | tally p =>
    refine ⟨?_, hread⟩
    rw [Store.ask, LawfulStore.tally_eq p h.keeps]
    rfl

theorem Serves.after (h : Serves s ws) (requests : List Request) :
    Serves (after s requests) (ws ++ writes requests) := by
  induction requests generalizing s ws with
  | nil => rwa [writes, List.filterMap_nil, List.append_nil]
  | cons request requests ih =>
    rw [writes_cons, ← List.append_assoc]
    exact ih (h.ask request).2

/-- **Stores that serve give the same answers** if the same has been written before. -/
theorem Serves.answers_eq (hs : Serves s ws) (ht : Serves t ws) (requests : List Request) :
    answers s requests = answers t requests := by
  induction requests generalizing s t ws with
  | nil => rfl
  | cons request requests ih =>
    obtain ⟨hanswer, hs'⟩ := hs.ask request
    obtain ⟨hanswer', ht'⟩ := ht.ask request
    rw [answers, answers, hanswer, hanswer', ih hs' ht']

/-! ### Tables and memory -/

/-- **The tables answer as a store in memory does,** to whatever requests in whatever order. Both
tell what has been written last. The notes that the tables may hold do not matter. -/
theorem tables_answer_as_memory (notes : Table) (requests : List Request) :
    let tables : Tables := { Tables.empty with notes }
    answers tables requests = answers MemoryStore.empty requests ∧
      Tells (after tables requests) (writes requests) ∧
      Tells (after MemoryStore.empty requests) (writes requests) := by
  intro tables
  have htables : Serves tables [] := ⟨Tables.keeps_empty notes, rfl⟩
  have hmemory : Serves MemoryStore.empty [] := ⟨MemoryStore.contents_empty, rfl⟩
  exact ⟨htables.answers_eq hmemory requests, tells_of_keeps (htables.after requests).keeps,
    tells_of_keeps (hmemory.after requests).keeps⟩

end Store

end DelegatedVoting
