import DelegatedVoting.Store.Tables

/-!
# The state of the tables

Before the records are read, the tables are looked over: each of them must be there, and its
keys must have the right number of bytes. What is wrong is collected.

* `Found`: what stands where a table should be;
* `Defect`: what is wrong;
* `Inspection`: the entries counted and the defects found;
* `inspect`, `Tables.inspect`.
-/

namespace DelegatedVoting

/-- What stands where a table should be. -/
inductive Found
  | nothing
  /-- A record that is no table. -/
  | record
  | table (t : Table)

/-- What is wrong with a table. -/
inductive Defect
  | missing (name : TableName)
  | noTable (name : TableName)
  | badKeys (name : TableName) (count : Nat)
  deriving DecidableEq, Repr

/-- The report of a defect. -/
def Defect.message : Defect → String
  | .missing name => "database '" ++ name.text ++ "' is missing"
  | .noTable name =>
    "failed to open database '" ++ name.text ++
      "': MDB_INCOMPATIBLE: Operation and DB incompatible, or DB flags changed"
  | .badKeys name count =>
    "database '" ++ name.text ++ "' has " ++ toString count ++ " keys of unexpected length"

/-- What has been found out about the tables. -/
structure Inspection where
  /-- The number of entries of each table that could be read. -/
  entries : List (TableName × Nat)
  defects : List Defect
  deriving DecidableEq, Repr

namespace Inspection

/-- Whether nothing is wrong. -/
def isHealthy (r : Inspection) : Bool := r.defects.isEmpty

/-- The number of all the entries. -/
def total (r : Inspection) : Nat := r.entries.foldl (fun n e => n + e.2) 0

end Inspection

/-- The number of keys that have not the right number of bytes. -/
def TableName.badKeys (name : TableName) (t : Table) : Nat :=
  match name.keyLength with
  | some length => t.keys.countP fun key => key.length ≠ length
  | none => 0

/-- What is wrong with what stands where a table should be. -/
def TableName.defects (name : TableName) : Found → List Defect
  | .nothing => [.missing name]
  | .record => [.noTable name]
  | .table t => if name.badKeys t = 0 then [] else [.badKeys name (name.badKeys t)]

/-- The number of entries of a table, if there is one. -/
def Found.count : Found → Option Nat
  | .table t => some t.size
  | _ => none

/-- Look over the tables. The counts stand in the order of the names. -/
def inspect (found : TableName → Found) : Inspection where
  entries := [TableName.ballots, .notes, .proposals, .tallies].filterMap fun name =>
    (found name).count.map fun n => (name, n)
  defects := TableName.all.flatMap fun name => name.defects (found name)

/-- Look over tables that are there. -/
def Tables.inspect (ts : Tables) : Inspection :=
  DelegatedVoting.inspect fun name => .table (ts.table name)

end DelegatedVoting
