import DelegatedVoting.Store.Tables
import DelegatedVoting.Text.Utf8

/-!
# The notes of the tables

The fourth table keeps notes under names. One of the notes tells under which rules the tables
were written. Tables without this note are given it when they are opened; tables that were
written under newer rules are refused.

* `Tables.note`, `Tables.putNote`: a note;
* `Tables.schemaVersion`, `Tables.setSchemaVersion`: the version of the rules;
* `Tables.migrate`: bring the tables up to date;
* `Tables.opened`: the tables as they are after they have been opened.
-/

namespace DelegatedVoting.Tables

/-- The version of the rules that this library writes. -/
def currentVersion : UInt32 := 1

/-- The name of the note that holds the version. -/
def versionKey : String := "schema_version"

/-- Keep a note. -/
def putNote (key : String) (value : Bytes) (ts : Tables) : Except StoreError Tables :=
  asStore (ts.put .notes (Text.Utf8.encode key) value)

/-- The note of the given name. -/
def note (key : String) (ts : Tables) : Except StoreError Bytes := asStore do
  match ← ts.notes.get (Text.Utf8.encode key) with
  | some value => pure value
  | none => throw (.notFound ("meta key '" ++ key ++ "'"))

/-- The version of the rules under which the tables were written; zero if there is no note. -/
def schemaVersion (ts : Tables) : Except StoreError UInt32 := asStore do
  match ← ts.notes.get (Text.Utf8.encode versionKey) with
  | none => pure 0
  | some value =>
    if value.length = 4 then pure (UInt32.ofNat (Bytes.ofLittleEndian value))
    else throw (.serialization "schema_version has unexpected byte length")

/-- Note the version of the rules. -/
def setSchemaVersion (version : UInt32) (ts : Tables) : Except StoreError Tables :=
  putNote versionKey (Bytes.littleEndian 4 version.toNat) ts

/-- What a store refuses, the opening of the tables refuses. -/
def asOpening {α : Type} (r : Except StoreError α) : Except TableError α :=
  r.mapError fun e => .engine e.message

/-- Bring the tables up to date. -/
def migrate (ts : Tables) : Except TableError Tables := do
  let version ← asOpening ts.schemaVersion
  if version = currentVersion then pure ts
  else if currentVersion < version then throw (.schemaTooNew version currentVersion)
  else asOpening (ts.setSchemaVersion currentVersion)

/-- The tables as they are after they have been opened. They may be new ones. -/
def opened (ts : Tables) : Except TableError Tables := ts.migrate

end DelegatedVoting.Tables
