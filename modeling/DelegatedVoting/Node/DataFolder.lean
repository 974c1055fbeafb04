import DelegatedVoting.Files
import DelegatedVoting.Packed.Tables
import DelegatedVoting.Store.Schema

/-!
# Data folders

A node keeps its tables in a folder of its own. A folder that holds other things, but no tables, is
left alone.

* `DataFolder.Problem`, `DataFolder.check`: whether a path may be used as a data folder;
* `DataFolder.entryOf`, `DataFolder.bytesOf`: the tables that the bytes of a file hold, and the
  bytes that hold tables;
* `DataFolder.openTables`: the tables in a data folder, which may be new ones.
-/

namespace DelegatedVoting.DataFolder

/-- The name of the file that holds the tables. -/
def fileName : String := "data.mdb"

/-- The name of the file by which those who have opened the tables know of each other. -/
def lockName : String := "lock.mdb"

/-- Why a path may not be used as a data folder. -/
inductive Problem
  | notFolder (path : String)
  /-- The folder belongs to somebody else. -/
  | foreign (path : String)
  deriving DecidableEq, Repr

/-- The report of a path that may not be used. -/
def Problem.message : Problem → String
  | .notFolder path => path ++ " is not a directory"
  | .foreign path => "directory " ++ path ++ " holds files but no " ++ fileName

/-- Whether a path may be used as a data folder. What is not there yet may be made. -/
def check (path : String) (fs : Files) : Except Problem Unit :=
  match fs.find path with
  | .error _ => .ok ()
  | .ok (place, .folder) =>
    if (fs.get? (place ++ [fileName])).isSome || fs.isEmptyFolder place then .ok ()
    else .error (.foreign path)
  | .ok _ => .error (.notFolder path)

/-- The number of bytes of which the size of the tables must be a multiple. -/
def pageSize : Nat := 4096

/-- The number of bytes for which there is room in the memory of a program. -/
def maxMapSize : Nat := 0x555555554000

/-- What the bytes of a file are: tables, or something else. -/
def entryOf (bytes : Bytes) : Entry :=
  match Packed.Format.tables.decode bytes with
  | .ok t => .tables t
  | .error _ => .text (String.ofList (Text.Utf8.decodeLossy bytes))

/-- The bytes of a file that holds tables. -/
def bytesOf (t : Tables) : Bytes := Packed.Format.tables.write t

/-- The tables in a file. An empty file is one without tables. -/
def tablesIn : Option Entry → Except TableError Tables
  | none => .ok .empty
  | some (.tables t) => .ok t
  | some (.text content) =>
    if content.isEmpty then .ok .empty
    else .error (.engine "MDB_INVALID: File is not an LMDB file")
  | some .folder => .error (.engine Files.Problem.isFolder.message)

/-- The tables in the folder at a place. -/
def tablesAt (place : List String) (mapSize : Nat) (fs : Files) : Except TableError Tables := do
  if mapSize % pageSize ≠ 0 then
    throw (.engine ("map size (" ++ toString mapSize ++
      ") must be a multiple of the system page size (" ++ toString pageSize ++ ")"))
  match fs.get? (place ++ [lockName]) with
  | some .folder => throw (.engine Files.Problem.isFolder.message)
  | _ => pure ()
  let tables ← tablesIn (fs.get? (place ++ [fileName]))
  if maxMapSize < mapSize then throw (.engine "Cannot allocate memory (os error 12)")
  Tables.opened tables

/-- Open the tables in a data folder, after the folder has been made. The result is the place of the
file, the tables, and the files with them. -/
def openTables (path : String) (mapSize : Nat) (fs : Files) :
    Except TableError (List String × Tables) × Files :=
  let (made, fs) := fs.makeFolders path
  let opened : Except TableError (List String × Tables) := do
    made.mapError fun p => .files p.message
    let (place, _) ← (fs.find path).mapError fun p => .engine p.message
    let tables ← tablesAt place mapSize fs
    pure (place, tables)
  match opened with
  | .error e => (.error e, fs)
  | .ok (place, tables) =>
    let file := place ++ [fileName]
    (.ok (file, tables), (fs.put (place ++ [lockName]) (.text "")).put file (.tables tables))

end DelegatedVoting.DataFolder
