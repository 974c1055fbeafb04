import DelegatedVoting.Resolution
import Mathlib.Logic.Relation

/-!
# Chains of delegations

Where the actions of a book lead, said without any resolution: from a participant one follows
the actions that count, and either comes to a direct vote after finitely many delegations, or
never does.

* `Book.Delegates`, `Book.Votes`: one action that counts;
* `Book.LeadsTo`: the delegations from a participant come to a direct vote;
* `Book.EndsIn`: the vote that a participant ends up with, which is to abstain where the
  delegations come to no direct vote;
* `LeadsTo.unique`, `endsIn_unique`, `exists_endsIn`: everybody ends up with exactly one vote;
* `not_leadsTo_of_ring`: a ring of delegations comes to no vote.
-/

namespace DelegatedVoting.Ballot.Book

open Relation

variable {b : Book} {u v d : ParticipantId} {isYes : Bool} {vote : Vote}

/-- The action of `v` that counts is a delegation to `d`. -/
def Delegates (b : Book) (v d : ParticipantId) : Prop :=
  ∃ voter seq, b.current? v = some (.delegation voter d seq)

/-- The action of `v` that counts is a direct vote. -/
def Votes (b : Book) (v : ParticipantId) (isYes : Bool) : Prop :=
  ∃ voter seq, b.current? v = some (.vote voter isYes seq)

/-- The delegations from a participant come to a direct vote. -/
inductive LeadsTo (b : Book) : ParticipantId → Bool → Prop
  | vote {v : ParticipantId} {isYes : Bool} : b.Votes v isYes → LeadsTo b v isYes
  | delegation {v d : ParticipantId} {isYes : Bool} :
    b.Delegates v d → LeadsTo b d isYes → LeadsTo b v isYes

/-- The vote that a participant ends up with. -/
def EndsIn (b : Book) (v : ParticipantId) : Vote → Prop
  | .yes => b.LeadsTo v true
  | .no => b.LeadsTo v false
  | .abstain => ∀ isYes, ¬ b.LeadsTo v isYes

/-! ### Chains are determined -/

theorem Delegates.unique {d' : ParticipantId} (h : b.Delegates v d) (h' : b.Delegates v d') :
    d = d' := by
  obtain ⟨_, _, h⟩ := h
  obtain ⟨_, _, h'⟩ := h'
  rw [h] at h'
  cases h'
  rfl

theorem Delegates.not_votes (h : b.Delegates v d) : ¬ b.Votes v isYes := by
  rintro ⟨_, _, h'⟩
  obtain ⟨_, _, h⟩ := h
  rw [h] at h'
  cases h'

/-- A delegation hands on what the delegate comes to, and nothing else. -/
theorem leadsTo_iff_of_delegates (h : b.Delegates v d) : b.LeadsTo v isYes ↔ b.LeadsTo d isYes := by
  constructor
  · intro hv
    cases hv with
    | vote hvote => exact absurd hvote h.not_votes
    | delegation h' hd => exact h.unique h' ▸ hd
  · exact .delegation h

theorem leadsTo_iff_of_votes (h : b.Votes v isYes) {isYes' : Bool} :
    b.LeadsTo v isYes' ↔ isYes' = isYes := by
  constructor
  · intro hv
    cases hv with
    | vote h' =>
      obtain ⟨_, _, h⟩ := h
      obtain ⟨_, _, h'⟩ := h'
      rw [h] at h'
      cases h'
      rfl
    | delegation h' _ => exact absurd h h'.not_votes
  · rintro rfl
    exact .vote h

/-- Somebody who has not acted comes to no vote. -/
theorem not_leadsTo_of_current?_eq_none (h : b.current? v = none) : ¬ b.LeadsTo v isYes := by
  intro hv
  cases hv with
  | vote h' => obtain ⟨_, _, h'⟩ := h'; rw [h] at h'; cases h'
  | delegation h' _ => obtain ⟨_, _, h'⟩ := h'; rw [h] at h'; cases h'

theorem LeadsTo.unique {isYes' : Bool} (h : b.LeadsTo v isYes) (h' : b.LeadsTo v isYes') :
    isYes = isYes' := by
  induction h with
  | vote hvote => exact ((leadsTo_iff_of_votes hvote).1 h').symm
  | delegation hd _ ih => exact ih ((leadsTo_iff_of_delegates hd).1 h')

/-- Along a chain everybody comes to the same vote. -/
theorem leadsTo_iff_of_transGen (h : TransGen b.Delegates u v) :
    b.LeadsTo u isYes ↔ b.LeadsTo v isYes := by
  induction h with
  | single h => exact leadsTo_iff_of_delegates h
  | tail _ h ih => exact ih.trans (leadsTo_iff_of_delegates h)

/-- A ring of delegations comes to no vote. -/
theorem not_leadsTo_of_ring (h : TransGen b.Delegates v v) : ¬ b.LeadsTo v isYes := by
  intro hv
  induction hv with
  | vote hvote =>
    obtain ⟨_, hd, -⟩ := TransGen.head'_iff.1 h
    exact hd.not_votes hvote
  | @delegation v d _ hd _ ih =>
    -- the ring through `v` leaves it for `d`, so it is a ring through `d` as well
    obtain ⟨d', hd', hback⟩ := TransGen.head'_iff.1 h
    obtain rfl := hd.unique hd'
    exact ih (TransGen.tail' hback hd)

/-! ### The vote that somebody ends up with -/

theorem endsIn_unique {vote' : Vote} (h : b.EndsIn v vote) (h' : b.EndsIn v vote') :
    vote = vote' := by
  match vote, vote' with
  | .yes, .yes | .no, .no | .abstain, .abstain => rfl
  | .yes, .no | .no, .yes => exact absurd (LeadsTo.unique h h') (by decide)
  | .yes, .abstain | .no, .abstain => exact absurd h (h' _)
  | .abstain, .yes | .abstain, .no => exact absurd h' (h _)

theorem exists_endsIn (b : Book) (v : ParticipantId) : ∃ vote, b.EndsIn v vote := by
  by_cases hyes : b.LeadsTo v true
  · exact ⟨.yes, hyes⟩
  by_cases hno : b.LeadsTo v false
  · exact ⟨.no, hno⟩
  refine ⟨.abstain, fun isYes => ?_⟩
  cases isYes
  · exact hno
  · exact hyes

theorem endsIn_direct : b.EndsIn v (.direct isYes) ↔ b.LeadsTo v isYes := by
  cases isYes <;> rfl

theorem endsIn_iff_of_transGen (h : TransGen b.Delegates u v) :
    b.EndsIn u vote ↔ b.EndsIn v vote := by
  cases vote <;> simp only [EndsIn, leadsTo_iff_of_transGen h]

end DelegatedVoting.Ballot.Book
