import DelegatedVoting.Identifier

/-!
# Stores

A store keeps the records of the proposals, of their ballots and of their tallies as bytes. It
does not look into them.

* `StoreError`: why a store refuses;
* `Store`: the writes and reads of a store. Each write is done as a whole or not at all, so a
  refused write leaves the store as it was. A store may be of one of two kinds.
-/

namespace DelegatedVoting

/-- Why a store refuses. -/
inductive StoreError
  | notFound (what : String)
  | backend (what : String)
  | serialization (what : String)
  | corruption (what : String)
  deriving DecidableEq, Repr

namespace StoreError

/-- The report of a refusal. -/
def message : StoreError → String
  | .notFound what => "key not found: " ++ what
  | .backend what => "storage backend error: " ++ what
  | .serialization what => "serialization error: " ++ what
  | .corruption what => "database is corrupted: " ++ what

end StoreError

/-- What keeps the records of a vote. -/
class Store (σ : Type) where
  /-- Keep the record of a proposal, in the place of an older one. -/
  putProposal : ProposalId → Bytes → σ → Except StoreError σ
  /-- Keep a ballot of a proposal under its number. -/
  putBallot : ProposalId → UInt64 → Bytes → σ → Except StoreError σ
  /-- Keep the record of a finalized proposal and its tally together. -/
  putFinalization : ProposalId → (proposal : Bytes) → (tally : Bytes) → σ → Except StoreError σ
  /-- The record of a proposal. -/
  proposal : ProposalId → σ → Except StoreError Bytes
  /-- The records of all the proposals, in the order of their names. -/
  proposals : σ → Except StoreError (List (ProposalId × Bytes))
  /-- The ballots of a proposal with their numbers, in ascending order. -/
  ballots : ProposalId → σ → Except StoreError (List (UInt64 × Bytes))
  /-- The tally of a proposal, if it has one. -/
  tally : ProposalId → σ → Except StoreError (Option Bytes)

/-- A store of one of two kinds is a store. -/
instance {σ τ : Type} [Store σ] [Store τ] : Store (σ ⊕ τ) where
  putProposal p record
    | .inl s => .inl <$> Store.putProposal p record s
    | .inr s => .inr <$> Store.putProposal p record s
  putBallot p seq record
    | .inl s => .inl <$> Store.putBallot p seq record s
    | .inr s => .inr <$> Store.putBallot p seq record s
  putFinalization p proposal tally
    | .inl s => .inl <$> Store.putFinalization p proposal tally s
    | .inr s => .inr <$> Store.putFinalization p proposal tally s
  proposal p := Sum.elim (Store.proposal p) (Store.proposal p)
  proposals := Sum.elim Store.proposals Store.proposals
  ballots p := Sum.elim (Store.ballots p) (Store.ballots p)
  tally p := Sum.elim (Store.tally p) (Store.tally p)

end DelegatedVoting
