import DelegatedVoting.Identifier
import DelegatedVoting.Timestamp

/-!
# Ballots

What a participant does on a proposal: to vote, or to let somebody else vote. Each action
carries a number that orders the actions on one proposal.

* `Ballot.Action`: a direct vote or a delegation;
* `Ballot.Record`: an action and the time of its acceptance.
-/

namespace DelegatedVoting

namespace Ballot

/-- What a participant does on a proposal. -/
inductive Action
  | vote (voter : ParticipantId) (isYes : Bool) (seq : UInt64)
  | delegation (voter delegate : ParticipantId) (seq : UInt64)
  deriving DecidableEq, Repr

namespace Action

/-- The participant who acts. -/
def voter : Action → ParticipantId
  | .vote voter _ _ => voter
  | .delegation voter _ _ => voter

/-- The place of the action in the order of the actions on its proposal. -/
def seq : Action → UInt64
  | .vote _ _ seq => seq
  | .delegation _ _ seq => seq

/-- Whether somebody delegates to themselves. -/
def IsSelfDelegation : Action → Prop
  | .vote .. => False
  | .delegation voter delegate _ => voter = delegate

instance (a : Action) : Decidable a.IsSelfDelegation := by
  cases a <;> unfold IsSelfDelegation <;> infer_instance

end Action

/-- An accepted action. -/
structure Record where
  action : Action
  recordedAt : Timestamp
  deriving DecidableEq, Repr

end Ballot

end DelegatedVoting
