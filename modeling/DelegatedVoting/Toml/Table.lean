/-!
# TOML tables

The values that a TOML document consists of, and how its tables grow. What may be added to a table
depends on how the table came to be: a table is defined once, and only a table that has not been
defined is still open.

* `Item`, `Table`, `Origin`;
* `KeyPath`: a key with the keys of the tables around it;
* `Table.assign`: a value under a dotted key;
* `Table.define`, `Table.append`: a table of its own, and one more table of an array.
-/

namespace DelegatedVoting.Toml

/-- How a table came to be. -/
inductive Origin
  /-- By a header, or as the whole document. -/
  | header
  /-- By the header of a table inside it. -/
  | implied
  /-- By a dotted key. -/
  | dotted
  /-- Between braces. -/
  | inline
  deriving DecidableEq, Repr

mutual

/-- A value. Numbers with a fraction and times are told apart and not kept. -/
inductive Item
  | text (s : String)
  | integer (n : Int)
  | real
  | flag (b : Bool)
  | moment
  | array (items : List Item)
  | table (t : Table)
  /-- The tables of an array, each with a header. -/
  | tables (ts : List Table)

/-- Values under keys. -/
inductive Table
  | mk (origin : Origin) (entries : List (String × Item))

end

/-- A key with the keys of the tables around it, the outermost one first. -/
structure KeyPath where
  parents : List String
  name : String
  deriving DecidableEq, Repr

namespace Table

instance : Inhabited Table := ⟨.mk .header []⟩

/-- The table without a value. -/
def empty (origin : Origin) : Table := .mk origin []

def origin : Table → Origin
  | .mk o _ => o

def entries : Table → List (String × Item)
  | .mk _ es => es

/-- The value under a key. -/
def get? (key : String) (t : Table) : Option Item := t.entries.lookup key

/-- The entries with a value under a key, in the place of an older one or at the end. -/
def putEntry (key : String) (v : Item) : List (String × Item) → List (String × Item)
  | [] => [(key, v)]
  | e :: es => if e.1 = key then (key, v) :: es else e :: putEntry key v es

/-- The table with a value under a key. -/
def put (key : String) (v : Item) (t : Table) : Table := .mk t.origin (putEntry key v t.entries)

/-- The tables with the last one changed. -/
def changeLast (f : Table → Option Table) : List Table → Option (List Table)
  | [] => none
  | [t] => (f t).map fun t => [t]
  | t :: ts => (changeLast f ts).map (t :: ·)

/-- The table with a value under a key that has none. A table that is reached by a dotted key must
have come to be by dotted keys. -/
def add (reached : Bool) (key : String) (v : Item) (t : Table) : Option Table :=
  if reached ∧ t.origin ≠ .dotted then none
  else match t.get? key with
    | some _ => none
    | none => some (t.put key v)

/-- Change the table that is reached through the keys, which are the parts of a dotted key. Tables
that have been defined cannot be reached. -/
def reach (f : Table → Option Table) : List String → Table → Option Table
  | [], t => f t
  | key :: keys, t =>
    match t.get? key with
    | none => (reach f keys (.empty .dotted)).map fun sub => t.put key (.table sub)
    | some (.table sub) =>
      if sub.origin = .header ∨ sub.origin = .inline then none
      else (reach f keys sub).map fun sub => t.put key (.table sub)
    | some (.tables ts) => (changeLast (reach f keys) ts).map fun ts => t.put key (.tables ts)
    | some _ => none

/-- The table with a value under a dotted key. -/
def assign (path : KeyPath) (v : Item) (t : Table) : Option Table :=
  reach (add (!path.parents.isEmpty) path.name v) path.parents t

/-- Change what stands under the last key of a header. -/
def enter (f : Option Item → Option Item) (name : String) : List String → Table → Option Table
  | [], t => (f (t.get? name)).map fun v => t.put name v
  | key :: keys, t =>
    match t.get? key with
    | none => (enter f name keys (.empty .implied)).map fun sub => t.put key (.table sub)
    | some (.table sub) =>
      if sub.origin = .inline then none
      else (enter f name keys sub).map fun sub => t.put key (.table sub)
    | some (.tables ts) =>
      (changeLast (enter f name keys) ts).map fun ts => t.put key (.tables ts)
    | some _ => none

/-- The table with a table of its own under a header, where `fill` adds the values of the table. -/
def define (path : KeyPath) (fill : Table → Option Table) : Table → Option Table :=
  enter (fun
    | none => .table <$> fill (.empty .header)
    | some (.table (.mk .implied entries)) => .table <$> fill (.mk .header entries)
    | some _ => none) path.name path.parents

/-- The table with one more table of an array under a header. -/
def append (path : KeyPath) (fill : Table → Option Table) : Table → Option Table :=
  enter (fun
    | none => (fun t => .tables [t]) <$> fill (.empty .header)
    | some (.tables ts) => (fun t => .tables (ts ++ [t])) <$> fill (.empty .header)
    | some _ => none) path.name path.parents

end Table

end DelegatedVoting.Toml
