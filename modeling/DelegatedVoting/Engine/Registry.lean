import DelegatedVoting.Proposal

/-!
# The registry of proposals

What is known about the proposals: each of them with its ballots, and their order of creation.

* `Slot`: a proposal and its ballots;
* `Registry`, `Registry.empty`;
* `Registry.list`, `count`, `openCount`: the proposals in the order of their creation;
* `Registry.add`, `Registry.restore`, `Registry.update`: changes.
-/

namespace DelegatedVoting

/-- A proposal and its ballots. -/
structure Slot where
  proposal : Proposal
  book : Ballot.Book
  deriving DecidableEq

/-- What is known about the proposals. -/
structure Registry where
  slots : Std.ExtTreeMap ProposalId Slot
  /-- The names of the proposals under their places in the order of creation. -/
  order : Std.ExtTreeMap UInt64 ProposalId
  /-- The place of the next proposal. -/
  nextSequence : UInt64
  deriving DecidableEq

namespace Registry

/-- The registry without a proposal. -/
def empty : Registry := ⟨∅, ∅, 0⟩

instance : Inhabited Registry := ⟨empty⟩

/-- The proposals in the order of their creation. -/
def list (r : Registry) : List Proposal :=
  r.order.values.filterMap fun p => r.slots[p]?.map Slot.proposal

/-- The number of places that are taken in the order of creation. -/
def count (r : Registry) : Nat := r.order.size

/-- The number of proposals that accept ballots. -/
def openCount (r : Registry) : Nat := r.list.countP fun p => p.IsOpen

/-- Enter a proposal that has been created, at the place that was taken for it. -/
def add (p : Proposal) (r : Registry) : Registry :=
  { r with
    slots := r.slots.insert p.id ⟨p, .empty⟩
    order := r.order.insert p.sequence p.id }

/-- Enter a proposal that was created earlier. Later proposals come after it. -/
def restore (slot : Slot) (r : Registry) : Registry where
  slots := r.slots.insert slot.proposal.id slot
  order := r.order.insert slot.proposal.sequence slot.proposal.id
  nextSequence := max r.nextSequence (Ballot.Book.after slot.proposal.sequence)

/-- Replace what is known about a proposal. -/
def update (p : ProposalId) (slot : Slot) (r : Registry) : Registry :=
  { r with slots := r.slots.insert p slot }

end Registry

end DelegatedVoting
