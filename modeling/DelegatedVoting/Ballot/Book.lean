import DelegatedVoting.Ballot
import Std.Data.ExtTreeMap

/-!
# Ballot books

The ballots on one proposal: for each participant the action that counts, and the trail of all
the actions. Records may arrive in any order of their numbers.

* `Book`, `Book.empty`, `Book.blank`;
* `Book.apply`: a record enters the book;
* `Book.nextSeq`: the number for the next action;
* `Book.current?`, `Book.trail`, `Book.actors`: what the book shows.
-/

namespace DelegatedVoting.Ballot

/-- The ballots on one proposal. -/
structure Book where
  /-- The number for the next action, as far as it is known. -/
  counter : UInt64
  /-- The action that counts, for each participant who has acted. -/
  current : Std.ExtTreeMap ParticipantId Action
  /-- All the records of each participant, in ascending order of their numbers. -/
  trails : Std.ExtTreeMap ParticipantId (List Record)
  deriving DecidableEq

namespace Book

/-- The book without a ballot. -/
def empty : Book := ⟨1, ∅, ∅⟩

/-- The book without a ballot whose counter has not been set. -/
def blank : Book := ⟨0, ∅, ∅⟩

instance : Inhabited Book := ⟨empty⟩

/-- The number after `seq`, except that the last number has no successor. -/
def after (seq : UInt64) : UInt64 := if seq + 1 = 0 then seq else seq + 1

/-- The number for the next action. Numbers start at one. -/
def nextSeq (b : Book) : UInt64 := max b.counter 1

/-- Put a record into a trail, behind all the records with smaller numbers. -/
def enter (r : Record) (trail : List Record) : List Record :=
  trail.takeWhile (·.action.seq < r.action.seq) ++
    r :: trail.dropWhile (·.action.seq < r.action.seq)

/-- The action that counts, after `new` has joined `old`: the one with the larger number, and the
older one if they have the same. -/
def prevailing (old : Option Action) (new : Action) : Action :=
  match old with
  | none => new
  | some old => if old.seq < new.seq then new else old

/-- The action of a participant that counts. -/
def current? (b : Book) (v : ParticipantId) : Option Action := b.current[v]?

/-- The records of a participant. -/
def trail (b : Book) (v : ParticipantId) : List Record := b.trails.getD v []

/-- The participants who have acted, in ascending order. -/
def actors (b : Book) : List ParticipantId := b.current.keys

/-- A record enters the book. -/
def apply (b : Book) (r : Record) : Book :=
  let v := r.action.voter
  { counter := max b.nextSeq (after r.action.seq)
    current := b.current.insert v (prevailing (b.current? v) r.action)
    trails := b.trails.insert v (enter r (b.trail v)) }

/-- The book of a list of records. -/
def ofRecords (records : List Record) : Book := records.foldl apply empty

end Book

end DelegatedVoting.Ballot
