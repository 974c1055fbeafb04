import DelegatedVoting.Proofs.Mirror
import DelegatedVoting.Proofs.Tables

/-!
# Writes

A write is about one proposal, and it changes what a store keeps of that proposal and nothing else.

* `Write`, `Write.subject`, `Write.perform`: a write, what it is about, and a store that does it;
* `Write.file`, `Write.amend`: the records of a proposal after a write, and all records;
* `Write.folder_amend`, `folder_amend_of_ne`, `keeps_amend`: what a write changes;
* `Tables.written`: the tables after a write;
* `SwitchedStore`: a store that refuses all writes for one reason, or accepts them all. The stores
  in memory and the tables are such stores.
-/

namespace DelegatedVoting

/-! ### What a write changes -/

/-- What a store is told to keep. -/
inductive Write
  | proposal (p : ProposalId) (record : Bytes)
  | ballot (p : ProposalId) (seq : UInt64) (record : Bytes)
  | finalization (p : ProposalId) (proposal tally : Bytes)

namespace Write

variable {c : Contents} {p : ProposalId}

/-- The proposal that a write is about. -/
def subject : Write → ProposalId
  | .proposal p .. => p
  | .ballot p .. => p
  | .finalization p .. => p

/-- Have a store do a write. -/
def perform {σ : Type} [Store σ] (s : σ) : Write → Except StoreError σ
  | .proposal p record => Store.putProposal p record s
  | .ballot p seq record => Store.putBallot p seq record s
  | .finalization p record tally => Store.putFinalization p record tally s

/-- The records of a proposal after a write. -/
def file : Write → Folder → Folder
  | .proposal _ record, f => { f with proposal := some record }
  | .ballot _ seq record, f => { f with ballots := f.ballots.insert seq record }
  | .finalization _ record tally, f => { f with proposal := some record, tally := some tally }

/-- What a store keeps after a write. -/
def amend : Write → Contents → Contents
  | .proposal p record => .putProposal p record
  | .ballot p seq record => .putBallot p seq record
  | .finalization p record tally => .putFinalization p record tally

theorem folder_amend (w : Write) (c : Contents) :
    (w.amend c).folder w.subject = w.file (c.folder w.subject) := by
  cases w with
  | proposal => exact Contents.folder_putProposal _
  | ballot => exact Contents.folder_putBallot _ _
  | finalization => exact Contents.folder_putFinalization _ _

theorem folder_amend_of_ne (w : Write) (c : Contents) (h : p ≠ w.subject) :
    (w.amend c).folder p = c.folder p := by
  cases w with
  | proposal => exact Contents.folder_putProposal_of_ne h _
  | ballot => exact Contents.folder_putBallot_of_ne h _ _
  | finalization => exact Contents.folder_putFinalization_of_ne h _ _

theorem keeps_amend {σ : Type} [Store σ] [LawfulStore σ] {w : Write} {s s' : σ}
    (hkeeps : LawfulStore.Keeps s c) (h : w.perform s = .ok s') :
    LawfulStore.Keeps s' (w.amend c) := by
  cases w with
  | proposal => exact LawfulStore.keeps_putProposal hkeeps h
  | ballot => exact LawfulStore.keeps_putBallot hkeeps h
  | finalization => exact LawfulStore.keeps_putFinalization hkeeps h

/-- A store in memory counts the write that it does. -/
theorem writes_eq_of_perform {w : Write} {s s' : MemoryStore} (h : w.perform s = .ok s') :
    s.failing = false ∧ s'.writes = s.writes + 1 := by
  cases w <;> unfold perform at h <;> obtain ⟨hfailing, rfl⟩ := MemoryStore.write_eq_ok h <;>
    exact ⟨hfailing, rfl⟩

end Write

/-! ### Stores that refuse all writes or accept them all -/

/-- A store that refuses all writes, for one reason, or accepts them all. A write does not change
which of the two it does. -/
class SwitchedStore (σ : Type) [Store σ] where
  /-- Why writes are refused at the moment, if they are. -/
  obstacle? : σ → Option StoreError
  perform_eq_error_iff {s : σ} {w : Write} {x : StoreError} :
    w.perform s = .error x ↔ obstacle? s = some x
  obstacle?_eq_of_perform {s s' : σ} {w : Write} :
    w.perform s = .ok s' → obstacle? s' = obstacle? s

open SwitchedStore

/-- Without an obstacle, a write is done. -/
theorem Write.exists_perform {σ : Type} [Store σ] [SwitchedStore σ] {s : σ}
    (h : obstacle? s = none) (w : Write) : ∃ s', w.perform s = .ok s' := by
  cases hperform : w.perform s with
  | ok s' => exact ⟨s', rfl⟩
  | error x =>
    rw [perform_eq_error_iff, h] at hperform
    cases hperform

theorem obstacle?_eq_none_of_perform {σ : Type} [Store σ] [SwitchedStore σ] {s s' : σ} {w : Write}
    (h : w.perform s = .ok s') : obstacle? s = none := by
  cases hobstacle : obstacle? s with
  | none => rfl
  | some x =>
    rw [perform_eq_error_iff.2 hobstacle] at h
    cases h

namespace MemoryStore

/-- Why a store in memory refuses writes, if it does. -/
def obstacle? (s : MemoryStore) : Option StoreError :=
  if s.failing then some (.backend "injected write failure") else none

theorem write_eq_error_iff {change : MemoryStore → MemoryStore} {s : MemoryStore} {x : StoreError} :
    write change s = .error x ↔ s.obstacle? = some x := by
  unfold write obstacle?
  split <;> simp

instance : SwitchedStore MemoryStore where
  obstacle? := obstacle?
  perform_eq_error_iff {s w x} := by
    cases w <;> unfold Write.perform <;> exact write_eq_error_iff (s := s)
  obstacle?_eq_of_perform {s s' w} h := by
    cases w <;> unfold Write.perform at h <;> obtain ⟨-, rfl⟩ := write_eq_ok h <;> rfl

end MemoryStore

namespace Tables

/-- The tables after a write. -/
def written (ts : Tables) : Write → Tables
  | .proposal p record => ts.setTable .proposals (ts.proposals.insert p.bytes record)
  | .ballot p seq record => ts.setTable .ballots (ts.ballots.insert (Key.ballot p seq) record)
  | .finalization p record tally =>
    (ts.setTable .proposals (ts.proposals.insert p.bytes record)).setTable .tallies
      (ts.tallies.insert p.bytes tally)

/-- The tables accept every write, since its keys have ordinary lengths. -/
theorem perform_eq (w : Write) (ts : Tables) : w.perform ts = .ok (ts.written w) := by
  cases w with
  | proposal p record => exact putProposal_eq p record ts
  | ballot p seq record => exact putBallot_eq p seq record ts
  | finalization p record tally => exact putFinalization_eq p record tally ts

theorem eq_written {w : Write} {ts ts' : Tables} (h : w.perform ts = .ok ts') :
    ts' = ts.written w := by
  rw [perform_eq] at h
  exact (Except.ok.inj h).symm

instance : SwitchedStore Tables where
  obstacle? _ := none
  perform_eq_error_iff {ts w x} := by
    simp [perform_eq]
  obstacle?_eq_of_perform _ := rfl

end Tables

/-! ### One of two kinds -/

section Sum

variable {σ τ : Type} [Store σ] [Store τ]

theorem Write.perform_inl (w : Write) (s : σ) :
    w.perform (.inl s : σ ⊕ τ) = Sum.inl <$> w.perform s := by cases w <;> rfl

theorem Write.perform_inr (w : Write) (s : τ) :
    w.perform (.inr s : σ ⊕ τ) = Sum.inr <$> w.perform s := by cases w <;> rfl

instance [SwitchedStore σ] [SwitchedStore τ] : SwitchedStore (σ ⊕ τ) where
  obstacle? := Sum.elim obstacle? obstacle?
  perform_eq_error_iff {s w x} := by
    cases s with
    | inl s =>
      show _ ↔ obstacle? s = some x
      rw [w.perform_inl, ← perform_eq_error_iff (w := w)]
      cases w.perform s <;> simp
    | inr s =>
      show _ ↔ obstacle? s = some x
      rw [w.perform_inr, ← perform_eq_error_iff (w := w)]
      cases w.perform s <;> simp
  obstacle?_eq_of_perform {s s' w} h := by
    cases s with
    | inl s =>
      rw [w.perform_inl] at h
      obtain ⟨s', hs', rfl⟩ := map_eq_ok h
      exact obstacle?_eq_of_perform hs'
    | inr s =>
      rw [w.perform_inr] at h
      obtain ⟨s', hs', rfl⟩ := map_eq_ok h
      exact obstacle?_eq_of_perform hs'

end Sum

end DelegatedVoting
