import DelegatedVoting.Ballot.Book

/-!
# Resolution of delegations

Every participant who has acted ends up with one vote: a direct vote counts as it is, a
delegation counts as the vote of the delegate, and whoever delegates into a ring of delegations,
or to somebody who has not acted, abstains.

* `Vote`: the vote that somebody ends up with;
* `Resolution`: the votes of all the participants who have acted;
* `Walk`: the state of the resolution, where every participant is pending, on the path that is
  being followed, or resolved;
* `follow`: follow delegations from a participant to a vote, and note the path;
* `Book.resolve`: the resolution of a book, one path for each participant still pending.

Each participant is taken from the pending ones once, so the whole resolution follows each
delegation at most once.
-/

namespace DelegatedVoting

/-- The vote that a participant ends up with. -/
inductive Vote
  | yes
  | no
  | abstain
  deriving DecidableEq, Repr

/-- A direct vote. -/
def Vote.direct (isYes : Bool) : Vote := if isYes then .yes else .no

/-- The name of a vote. -/
def Vote.name : Vote → String
  | .yes => "yes"
  | .no => "no"
  | .abstain => "abstain"

/-- The votes of the participants who have acted. -/
abbrev Resolution := Std.ExtTreeMap ParticipantId Vote

/-- The actions of the participants who have not been visited. -/
abbrev Pending := Std.ExtTreeMap ParticipantId Ballot.Action

namespace Resolution

/-- Where a path ends: the vote, the participants on the path with the last one first, and the
participants who are still pending. -/
structure Walk where
  vote : Vote
  path : List ParticipantId
  pending : Pending

/-- Follow the delegations from `v`, where `path` leads to `v`. The path ends at a participant
whose vote is known, at a direct vote, or at somebody who is not pending and not resolved: that
is either somebody who has not acted, or somebody on the path. -/
def follow (resolved : Resolution) (pending : Pending) (path : List ParticipantId)
    (v : ParticipantId) : Walk :=
  match resolved[v]? with
  | some vote => ⟨vote, path, pending⟩
  | none =>
    match _h : pending[v]? with
    | none => ⟨.abstain, path, pending⟩
    | some (.vote _ isYes _) => ⟨.direct isYes, v :: path, pending.erase v⟩
    | some (.delegation _ delegate _) => follow resolved (pending.erase v) (v :: path) delegate
termination_by pending.size
decreasing_by
  have hv : v ∈ pending := by
    rw [Std.ExtTreeMap.mem_iff_isSome_getElem?, _h]; rfl
  have hpos : pending.size ≠ 0 := fun h0 =>
    Std.ExtTreeMap.ne_empty_of_mem hv (Std.ExtTreeMap.eq_empty_iff_size_eq_zero.2 h0)
  rw [Std.ExtTreeMap.size_erase, if_pos (Std.ExtTreeMap.contains_iff_mem.2 hv)]
  omega

/-- Give everybody on a path the same vote. -/
def settle (resolved : Resolution) (vote : Vote) (path : List ParticipantId) : Resolution :=
  path.foldl (fun r v => r.insert v vote) resolved

/-- What is known after some of the participants have been looked at. -/
structure Progress where
  resolved : Resolution
  pending : Pending
  /-- The paths that have been followed, the last one first. -/
  paths : List (List ParticipantId)

/-- Look at one participant: follow their delegations, unless their vote is known. -/
def Progress.visit (p : Progress) (v : ParticipantId) : Progress :=
  if v ∈ p.resolved then p
  else
    let w := follow p.resolved p.pending [] v
    ⟨settle p.resolved w.vote w.path, w.pending, w.path :: p.paths⟩

/-- Nobody has been looked at. -/
def Progress.start (b : Ballot.Book) : Progress := ⟨∅, b.current, []⟩

/-- Everybody has been looked at, in ascending order. -/
def Progress.all (b : Ballot.Book) : Progress := b.actors.foldl Progress.visit (Progress.start b)

end Resolution

/-- The votes of the participants who have acted. -/
def Ballot.Book.resolve (b : Ballot.Book) : Resolution := (Resolution.Progress.all b).resolved

end DelegatedVoting
