import DelegatedVoting.Store
import Std.Data.ExtTreeMap

/-!
# Stores in memory

A store that lives as long as the program. It can be told to refuse all writes, and it counts
the writes that it has done.

* `MemoryStore`, `MemoryStore.empty`;
* `MemoryStore.write`: a write, unless writes are refused.
-/

namespace DelegatedVoting

/-- A store in memory. -/
structure MemoryStore where
  proposals : Std.ExtTreeMap ProposalId Bytes
  ballots : Std.ExtTreeMap ProposalId (Std.ExtTreeMap UInt64 Bytes)
  tallies : Std.ExtTreeMap ProposalId Bytes
  /-- Whether writes are refused. -/
  failing : Bool
  /-- The number of writes done. -/
  writes : UInt64
  deriving DecidableEq

namespace MemoryStore

/-- The store that keeps nothing. -/
def empty : MemoryStore := ⟨∅, ∅, ∅, false, 0⟩

instance : Inhabited MemoryStore := ⟨empty⟩

/-- Refuse writes from now on, or accept them again. -/
def setFailing (failing : Bool) (s : MemoryStore) : MemoryStore := { s with failing }

/-- Do a write, unless writes are refused. -/
def write (change : MemoryStore → MemoryStore) (s : MemoryStore) : Except StoreError MemoryStore :=
  if s.failing then .error (.backend "injected write failure")
  else .ok { change s with writes := s.writes + 1 }

/-- The ballots of a proposal. -/
def ballotsOf (p : ProposalId) (s : MemoryStore) : Std.ExtTreeMap UInt64 Bytes := s.ballots.getD p ∅

instance : Store MemoryStore where
  putProposal p record := write fun s => { s with proposals := s.proposals.insert p record }
  putBallot p seq record := write fun s =>
    { s with ballots := s.ballots.insert p ((s.ballotsOf p).insert seq record) }
  putFinalization p proposal tally := write fun s =>
    { s with
      proposals := s.proposals.insert p proposal
      tallies := s.tallies.insert p tally }
  proposal p s :=
    match s.proposals[p]? with
    | some record => .ok record
    | none => .error (.notFound ("proposal " ++ toString p))
  proposals s := .ok s.proposals.toList
  ballots p s := .ok (s.ballotsOf p).toList
  tally p s := .ok s.tallies[p]?

end MemoryStore

end DelegatedVoting
