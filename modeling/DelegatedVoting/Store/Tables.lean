import DelegatedVoting.Store
import Std.Data.ExtTreeMap

/-!
# Stores of keyed tables

A store of four tables, each of which keeps byte strings under byte strings in the order of the
keys. Proposals and tallies stand under the names of the proposals; a ballot stands under the
name of its proposal and its number, the highest byte first, so that the ballots of a proposal
follow each other in the order of their numbers.

* `Key.ballot`, `Key.seq?`, `Key.proposal?`: the keys of records, and what keys say;
* `Table`, `Table.put`, `Table.get`, `Table.delete`, `Table.below`: one table;
* `Tables`: the four tables, and the store that they make;
* `TableError`: why tables refuse.
-/

namespace DelegatedVoting

/-! ### Keys -/

namespace Key

/-- The key of a ballot. -/
def ballot (p : ProposalId) (seq : UInt64) : Bytes := p.bytes ++ Bytes.bigEndian 8 seq.toNat

/-- The number in the key of a ballot. -/
def seq? (key : Bytes) : Option UInt64 :=
  if key.length = 24 then some (UInt64.ofNat (Bytes.ofBigEndian (key.drop 16))) else none

/-- The name in the key of a proposal. -/
def proposal? (key : Bytes) : Option ProposalId := ProposalId.ofBytes? key

end Key

/-! ### Tables -/

/-- Why tables refuse. -/
inductive TableError
  | engine (what : String)
  | notFound (what : String)
  | serialization (what : String)
  /-- The tables were written under newer rules. -/
  | schemaTooNew (found supported : UInt32)
  | files (what : String)
  deriving DecidableEq, Repr

namespace TableError

/-- The report of a refusal. -/
def message : TableError → String
  | .engine what => "LMDB error: " ++ what
  | .notFound what => "key not found: " ++ what
  | .serialization what => "serialization error: " ++ what
  | .schemaTooNew found supported =>
    "database schema version " ++ toString found.toNat ++ " is newer than supported version " ++
      toString supported.toNat
  | .files what => "IO error: " ++ what

/-- What the refusal means for a store. -/
def toStoreError : TableError → StoreError
  | .notFound what => .notFound what
  | .serialization what => .serialization what
  | e => .backend e.message

/-- A key has no bytes, or too many. -/
def badKey : TableError :=
  .engine "MDB_BAD_VALSIZE: Unsupported size of key/DB name/data, or wrong DUPFIXED size"

end TableError

/-- Byte strings under byte strings, in the order of the keys. -/
abbrev Table := Std.ExtTreeMap Bytes Bytes

namespace Table

/-- The largest number of bytes of a key. -/
def maxKeyLength : Nat := 511

/-- Put a value under a key, in the place of an older one. -/
def put (key value : Bytes) (t : Table) : Except TableError Table :=
  if 1 ≤ key.length ∧ key.length ≤ maxKeyLength then .ok (t.insert key value) else .error .badKey

/-- The value under a key. -/
def get (key : Bytes) (t : Table) : Except TableError (Option Bytes) :=
  if key.isEmpty then .error .badKey else .ok t[key]?

/-- The table without a key, and whether the key was there. -/
def delete (key : Bytes) (t : Table) : Except TableError (Bool × Table) :=
  if key.isEmpty then .error .badKey else .ok (t.contains key, t.erase key)

/-- The entries whose keys start with `start`: those from `start` on, up to the first byte string
above all of them. -/
def below (start : Bytes) (t : Table) : List (Bytes × Bytes) :=
  t.toList.filter fun e =>
    (compare start e.1).isLE &&
      match start.successor? with
      | some upper => (compare e.1 upper).isLT
      | none => true

end Table

/-- The names of the tables. -/
inductive TableName
  | proposals
  | ballots
  | tallies
  | notes
  deriving DecidableEq, Repr

/-- The four tables. -/
structure Tables where
  proposals : Table
  ballots : Table
  tallies : Table
  notes : Table

namespace TableName

/-- The written form of a name. -/
def text : TableName → String
  | .proposals => "proposals"
  | .ballots => "ballots"
  | .tallies => "tallies"
  | .notes => "meta"

/-- All the tables, in the order in which they are made. -/
def all : List TableName := [.proposals, .ballots, .tallies, .notes]

/-- The number of bytes of the keys of a table, if they all have the same. -/
def keyLength : TableName → Option Nat
  | .proposals => some 16
  | .ballots => some 24
  | .tallies => some 16
  | .notes => none

end TableName

namespace Tables

/-- The tables without an entry. -/
def empty : Tables := ⟨∅, ∅, ∅, ∅⟩

instance : Inhabited Tables := ⟨empty⟩

/-- One of the tables. -/
def table (ts : Tables) : TableName → Table
  | .proposals => ts.proposals
  | .ballots => ts.ballots
  | .tallies => ts.tallies
  | .notes => ts.notes

/-- The tables with one of them changed. -/
def setTable (name : TableName) (t : Table) (ts : Tables) : Tables :=
  match name with
  | .proposals => { ts with proposals := t }
  | .ballots => { ts with ballots := t }
  | .tallies => { ts with tallies := t }
  | .notes => { ts with notes := t }

/-- Put a value into one of the tables. -/
def put (name : TableName) (key value : Bytes) (ts : Tables) : Except TableError Tables := do
  let t ← (ts.table name).put key value
  pure (ts.setTable name t)

/-- What the tables refuse, a store refuses. -/
def asStore {α : Type} (r : Except TableError α) : Except StoreError α :=
  r.mapError TableError.toStoreError

/-- The entries of a table, where `read` tells what a key says. -/
def entries {κ : Type} (read : Bytes → Option κ) (problem : String) (es : List (Bytes × Bytes)) :
    Except TableError (List (κ × Bytes)) :=
  es.mapM fun e =>
    match read e.1 with
    | some k => .ok (k, e.2)
    | none => .error (.serialization problem)

instance : Store Tables where
  putProposal p record ts := asStore (ts.put .proposals p.bytes record)
  putBallot p seq record ts := asStore (ts.put .ballots (Key.ballot p seq) record)
  putFinalization p proposal tally ts := asStore do
    let ts ← ts.put .proposals p.bytes proposal
    ts.put .tallies p.bytes tally
  proposal p ts := asStore do
    match ← ts.proposals.get p.bytes with
    | some record => pure record
    | none => throw (.notFound ("proposal " ++ toString p))
  proposals ts := asStore (entries Key.proposal? "invalid proposal key length" ts.proposals.toList)
  ballots p ts :=
    asStore (entries Key.seq? "invalid ballot key length" (Table.below p.bytes ts.ballots))
  tally p ts := asStore (ts.tallies.get p.bytes)

end Tables

end DelegatedVoting
