import DelegatedVoting.Engine

/-!
# Recovery

An engine is rebuilt from what a store keeps. Every record is checked before it is used, and the
first one that does not fit stops the recovery.

* `Flaw`: what does not fit;
* `Recovery.proposal`, `Recovery.result`, `Recovery.ballot`, `Recovery.slot`: the checks;
* `Engine.recover`: the engine of a store.
-/

namespace DelegatedVoting

/-- What does not fit in the records of a proposal. -/
inductive Flaw
  | inconsistent
  | lastSequence
  | noTally
  | otherTally
  | ballotNumber
  | lastBallotNumber
  | selfDelegation
  deriving DecidableEq, Repr

/-- The report of a flaw. -/
def Flaw.message : Flaw → String
  | .inconsistent => "proposal record is inconsistent"
  | .lastSequence => "proposal sequence out of range"
  | .noTally => "finalized without a tally record"
  | .otherTally => "tally record disagrees with proposal"
  | .ballotNumber => "ballot sequence mismatch"
  | .lastBallotNumber => "ballot sequence out of range"
  | .selfDelegation => "stored self-delegation"

namespace Recovery

variable {σ : Type} [Store σ]

/-- The refusal of a flaw. -/
def flawed (p : ProposalId) (flaw : Flaw) : StoreError :=
  .corruption ("proposal " ++ toString p ++ ": " ++ flaw.message)

/-- The value that a record packs. -/
def unpack {α : Type} (f : Packed.Format α) (record : Bytes) : Except StoreError α :=
  (f.decode record).mapError fun problem => .serialization problem.message

/-- Whether a number has a successor. -/
def HasSuccessor (n : UInt64) : Prop := n.toNat + 1 < UInt64.size

instance (n : UInt64) : Decidable (HasSuccessor n) := inferInstanceAs (Decidable (_ < _))

/-- The proposal in the record under a name. -/
def proposal (key : ProposalId) (record : Bytes) : Except StoreError Proposal := do
  let p ← unpack .proposal record
  if ¬ (p.id = key ∧ p.IsConsistent) then throw (flawed key .inconsistent)
  else if ¬ HasSuccessor p.sequence then throw (flawed key .lastSequence)
  else pure p

/-- A finalized proposal has its result in the store as well. -/
def result (key : ProposalId) (s : σ) (p : Proposal) : Except StoreError Unit :=
  match p.result with
  | none => pure ()
  | some result => do
    match ← Store.tally key s with
    | none => throw (flawed key .noTally)
    | some record =>
      let tally ← unpack .tally record
      if tally = result then pure () else throw (flawed key .otherTally)

/-- The ballot in the record under a number. -/
def ballot (key : ProposalId) (seq : UInt64) (record : Bytes) :
    Except StoreError Ballot.Record := do
  let r ← unpack .ballotRecord record
  if r.action.seq ≠ seq then throw (flawed key .ballotNumber)
  else if ¬ HasSuccessor seq then throw (flawed key .lastBallotNumber)
  else if r.action.IsSelfDelegation then throw (flawed key .selfDelegation)
  else pure r

/-- The proposal in the record under a name, with its ballots. -/
def slot (s : σ) (key : ProposalId) (record : Bytes) : Except StoreError Slot := do
  let p ← proposal key record
  result key s p
  let ballots ← Store.ballots key s
  let records ← ballots.mapM fun b => ballot key b.1 b.2
  pure ⟨p, .ofRecords records⟩

/-- The registry of the records of proposals. -/
def registry (s : σ) (entries : List (ProposalId × Bytes)) : Except StoreError Registry :=
  entries.foldlM (fun r e => do
    let slot ← slot s e.1 e.2
    pure (r.restore slot)) .empty

end Recovery

/-- The engine of what a store keeps. -/
def Engine.recover {σ : Type} [Store σ] (rules : Rules) (s : σ) : Except Refusal Engine :=
  Except.mapError .store do
    let entries ← Store.proposals s
    let registry ← Recovery.registry s entries
    pure ⟨rules, registry⟩

end DelegatedVoting
