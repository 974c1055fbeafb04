import DelegatedVoting.Store.Memory
import DelegatedVoting.Proofs.Maps
import DelegatedVoting.Proofs.Results
import Mathlib.Logic.Function.Basic

/-!
# What a store keeps

A store is looked at through its contents: the record of each proposal, the ballots of each
proposal under their numbers, and the tallies. A store is lawful if its writes change the contents
as they should, or are refused, and if its reads tell the contents.

* `Contents`, `Contents.empty`, `putProposal`, `putBallot`, `putFinalization`;
* `LawfulStore`: what is asked of a store;
* the stores in memory are lawful, and so is a store of one of two lawful kinds.
-/

namespace DelegatedVoting

/-! ### Contents -/

/-- What a store keeps. -/
structure Contents where
  proposals : Std.ExtTreeMap ProposalId Bytes
  ballots : ProposalId → Std.ExtTreeMap UInt64 Bytes
  tallies : ProposalId → Option Bytes

namespace Contents

/-- Nothing is kept. -/
def empty : Contents := ⟨∅, fun _ => ∅, fun _ => none⟩

/-- Keep the record of a proposal. -/
def putProposal (p : ProposalId) (record : Bytes) (c : Contents) : Contents :=
  { c with proposals := c.proposals.insert p record }

/-- Keep a ballot. -/
def putBallot (p : ProposalId) (seq : UInt64) (record : Bytes) (c : Contents) : Contents :=
  { c with ballots := Function.update c.ballots p ((c.ballots p).insert seq record) }

/-- Keep the record of a finalized proposal and its tally. -/
def putFinalization (p : ProposalId) (proposal tally : Bytes) (c : Contents) : Contents :=
  { c with
    proposals := c.proposals.insert p proposal
    tallies := Function.update c.tallies p (some tally) }

end Contents

/-- A store that keeps what it is given. A write may be refused for any reason. -/
class LawfulStore (σ : Type) [Store σ] where
  /-- What the store keeps. -/
  Keeps : σ → Contents → Prop
  /-- Have writes refused from now on, or accepted again. A store may ignore this. -/
  refuseWrites : Bool → σ → σ
  keeps_refuseWrites {s : σ} {c : Contents} (refuse : Bool) :
    Keeps s c → Keeps (refuseWrites refuse s) c
  keeps_putProposal {s s' : σ} {c : Contents} {p : ProposalId} {record : Bytes} :
    Keeps s c → Store.putProposal p record s = .ok s' → Keeps s' (c.putProposal p record)
  keeps_putBallot {s s' : σ} {c : Contents} {p : ProposalId} {seq : UInt64} {record : Bytes} :
    Keeps s c → Store.putBallot p seq record s = .ok s' → Keeps s' (c.putBallot p seq record)
  keeps_putFinalization {s s' : σ} {c : Contents} {p : ProposalId} {proposal tally : Bytes} :
    Keeps s c → Store.putFinalization p proposal tally s = .ok s' →
      Keeps s' (c.putFinalization p proposal tally)
  proposal_eq {s : σ} {c : Contents} (p : ProposalId) : Keeps s c →
    Store.proposal p s =
      match c.proposals[p]? with
      | some record => .ok record
      | none => .error (.notFound ("proposal " ++ toString p))
  proposals_eq {s : σ} {c : Contents} : Keeps s c → Store.proposals s = .ok c.proposals.toList
  ballots_eq {s : σ} {c : Contents} (p : ProposalId) :
    Keeps s c → Store.ballots p s = .ok (c.ballots p).toList
  tally_eq {s : σ} {c : Contents} (p : ProposalId) : Keeps s c → Store.tally p s = .ok (c.tallies p)

/-! ### Stores in memory -/

namespace MemoryStore

/-- What a store in memory keeps. -/
def contents (s : MemoryStore) : Contents :=
  ⟨s.proposals, fun p => s.ballotsOf p, fun p => s.tallies[p]?⟩

theorem contents_empty : empty.contents = .empty := by
  have hballots (p : ProposalId) : empty.ballotsOf p = ∅ := by simp [empty, ballotsOf]
  have htallies (p : ProposalId) : empty.tallies[p]? = none := by simp [empty]
  simp only [contents, Contents.empty, hballots, htallies]
  rfl

/-- A write that is done changes the store as it says, and is counted. -/
theorem write_eq_ok {change : MemoryStore → MemoryStore} {s s' : MemoryStore}
    (h : write change s = .ok s') :
    s.failing = false ∧ s' = { change s with writes := s.writes + 1 } := by
  unfold write at h
  split at h
  · cases h
  · rename_i hfailing
    cases h
    exact ⟨by simpa using hfailing, rfl⟩

theorem ballotsOf_insert (s : MemoryStore) (p q : ProposalId)
    (ballots : Std.ExtTreeMap UInt64 Bytes) :
    ({ s with ballots := s.ballots.insert p ballots } : MemoryStore).ballotsOf q =
      if p = q then ballots else s.ballotsOf q := by
  simp only [ballotsOf, Std.ExtTreeMap.getD_eq_getD_getElem?, Maps.getElem?_insert]
  split <;> rfl

instance : LawfulStore MemoryStore where
  Keeps s c := s.contents = c
  refuseWrites := setFailing
  keeps_refuseWrites _ h := h
  keeps_putProposal h hput := by
    obtain ⟨-, rfl⟩ := write_eq_ok hput
    subst h
    rfl
  keeps_putBallot {s _ _ p seq record} h hput := by
    obtain ⟨-, rfl⟩ := write_eq_ok hput
    subst h
    have hballots : (fun q => ({ s with ballots := s.ballots.insert p ((s.ballotsOf p).insert seq
        record) } : MemoryStore).ballotsOf q) =
        Function.update (fun q => s.ballotsOf q) p ((s.ballotsOf p).insert seq record) := by
      funext q
      rw [ballotsOf_insert]
      by_cases h : p = q
      · subst h; simp
      · rw [if_neg h, Function.update_of_ne (Ne.symm h)]
    exact congrArg (fun ballots => (⟨s.proposals, ballots, fun q => s.tallies[q]?⟩ : Contents))
      hballots
  keeps_putFinalization {s _ _ p proposal tally} h hput := by
    obtain ⟨-, rfl⟩ := write_eq_ok hput
    subst h
    have htallies : (fun q => (s.tallies.insert p tally)[q]?) =
        Function.update (fun q => s.tallies[q]?) p (some tally) := by
      funext q
      rw [Maps.getElem?_insert]
      by_cases h : p = q
      · subst h; simp
      · rw [if_neg h, Function.update_of_ne (Ne.symm h)]
    exact congrArg (fun tallies =>
      (⟨s.proposals.insert p proposal, fun q => s.ballotsOf q, tallies⟩ : Contents)) htallies
  proposal_eq _ h := by subst h; rfl
  proposals_eq h := by subst h; rfl
  ballots_eq _ h := by subst h; rfl
  tally_eq _ h := by subst h; rfl

end MemoryStore

/-! ### One of two kinds -/

instance {σ τ : Type} [Store σ] [Store τ] [LawfulStore σ] [LawfulStore τ] :
    LawfulStore (σ ⊕ τ) where
  Keeps := Sum.elim LawfulStore.Keeps LawfulStore.Keeps
  refuseWrites refuse := Sum.map (LawfulStore.refuseWrites refuse) (LawfulStore.refuseWrites refuse)
  keeps_refuseWrites {s _} refuse h := by
    cases s with
    | inl s => exact LawfulStore.keeps_refuseWrites (σ := σ) refuse h
    | inr s => exact LawfulStore.keeps_refuseWrites (σ := τ) refuse h
  keeps_putProposal {s _ _ _ _} h hput := by
    cases s with
    | inl s =>
      obtain ⟨s', hs', rfl⟩ := map_eq_ok hput
      exact LawfulStore.keeps_putProposal (σ := σ) h hs'
    | inr s =>
      obtain ⟨s', hs', rfl⟩ := map_eq_ok hput
      exact LawfulStore.keeps_putProposal (σ := τ) h hs'
  keeps_putBallot {s _ _ _ _ _} h hput := by
    cases s with
    | inl s =>
      obtain ⟨s', hs', rfl⟩ := map_eq_ok hput
      exact LawfulStore.keeps_putBallot (σ := σ) h hs'
    | inr s =>
      obtain ⟨s', hs', rfl⟩ := map_eq_ok hput
      exact LawfulStore.keeps_putBallot (σ := τ) h hs'
  keeps_putFinalization {s _ _ _ _ _} h hput := by
    cases s with
    | inl s =>
      obtain ⟨s', hs', rfl⟩ := map_eq_ok hput
      exact LawfulStore.keeps_putFinalization (σ := σ) h hs'
    | inr s =>
      obtain ⟨s', hs', rfl⟩ := map_eq_ok hput
      exact LawfulStore.keeps_putFinalization (σ := τ) h hs'
  proposal_eq {s _} p h := by
    cases s with
    | inl s => exact LawfulStore.proposal_eq (σ := σ) p h
    | inr s => exact LawfulStore.proposal_eq (σ := τ) p h
  proposals_eq {s _} h := by
    cases s with
    | inl s => exact LawfulStore.proposals_eq (σ := σ) h
    | inr s => exact LawfulStore.proposals_eq (σ := τ) h
  ballots_eq {s _} p h := by
    cases s with
    | inl s => exact LawfulStore.ballots_eq (σ := σ) p h
    | inr s => exact LawfulStore.ballots_eq (σ := τ) p h
  tally_eq {s _} p h := by
    cases s with
    | inl s => exact LawfulStore.tally_eq (σ := σ) p h
    | inr s => exact LawfulStore.tally_eq (σ := τ) p h

end DelegatedVoting
