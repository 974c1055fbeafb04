import DelegatedVoting.Store.Tables

/-!
# Files

The part of a file system that a node looks at: folders, texts, and the tables of a store. A path is
a text of names with slashes between them.

* `Entry`, `Files`: what stands where;
* `Files.Problem`: why a path leads nowhere;
* `Files.resolve`, `Files.find`: what a path leads to;
* `Files.readText`, `Files.makeFolders`, `Files.put`, `Files.putAt`.
-/

namespace DelegatedVoting

/-- What can stand in a folder. -/
inductive Entry
  | folder
  | text (content : String)
  | tables (t : Tables)

/-- What stands where. A place is the list of the names on the way to it; the folders on the way
are there, too. -/
structure Files where
  entries : List (List String × Entry)

namespace Files

/-- There is nothing but the folder in which paths start. -/
def empty : Files := ⟨[]⟩

instance : Inhabited Files := ⟨empty⟩

/-- Why a path leads nowhere. -/
inductive Problem
  | missing
  | notFolder
  | isFolder
  /-- Something stands where a folder shall be. -/
  | occupied
  | nameTooLong
  | zeroByte
  deriving DecidableEq, Repr

/-- The report of the system. -/
def Problem.message : Problem → String
  | .missing => "No such file or directory (os error 2)"
  | .notFolder => "Not a directory (os error 20)"
  | .isFolder => "Is a directory (os error 21)"
  | .occupied => "File exists (os error 17)"
  | .nameTooLong => "File name too long (os error 36)"
  | .zeroByte => "file name contained an unexpected NUL byte"

/-- What stands at a place. Paths start in a folder, and so does the path of a single slash. -/
def get? (place : List String) (fs : Files) : Option Entry :=
  if place = [] ∨ place = [""] then some .folder
  else match fs.entries.lookup place with
    | some e => some e
    | none => if fs.entries.any fun e => place.isPrefixOf e.1 then some .folder else none

/-- Put something at a place. -/
def put (place : List String) (e : Entry) (fs : Files) : Files :=
  ⟨(place, e) :: fs.entries.filter fun f => f.1 ≠ place⟩

/-- Whether a folder holds nothing. -/
def isEmptyFolder (place : List String) (fs : Files) : Bool :=
  !fs.entries.any fun e => place.isPrefixOf e.1 && e.1 ≠ place

/-- The names in a path. -/
def parts (path : String) : List String := (path.toList.splitOn '/').map String.ofList

/-- The largest number of bytes of a name. -/
def maxNameLength : Nat := 255

/-- The largest number of bytes of a path. -/
def maxPathLength : Nat := 4095

/-- What is wrong with a path whatever stands where. -/
def fault? (path : String) : Option Problem :=
  if path.toList.contains '\x00' then some .zeroByte
  else if maxPathLength < path.utf8ByteSize then some .nameTooLong
  else none

/-- Follow names from a place. -/
def walk (fs : Files) (place : List String) : List String → Except Problem (List String)
  | [] => .ok place
  | name :: names =>
    match fs.get? place with
    | none => .error .missing
    | some .folder =>
      if name = "" ∨ name = "." then walk fs place names
      else if name = ".." then walk fs place.dropLast names
      else if maxNameLength < name.utf8ByteSize then .error .nameTooLong
      else walk fs (place ++ [name]) names
    | some _ => .error .notFolder

/-- The place that a path leads to, whether something stands there or not. -/
def locate (path : String) (fs : Files) : Except Problem (List String) :=
  match fault? path, parts path with
  | some p, _ => .error p
  | none, [""] => .error .missing
  | none, "" :: names => walk fs [""] names
  | none, names => walk fs [] names

/-- The place that a path leads to, and what stands there. -/
def find (path : String) (fs : Files) : Except Problem (List String × Entry) := do
  let place ← fs.locate path
  match fs.get? place with
  | some e => pure (place, e)
  | none => throw .missing

/-- The text at the end of a path. -/
def readText (path : String) (fs : Files) : Except Problem String := do
  match ← fs.find path with
  | (_, .text content) => pure content
  | (_, .folder) => throw .isFolder
  | (_, .tables _) => throw .isFolder

/-- Follow names from the place of a folder, and make the folders that are missing. Once one has
been made, or at the last name, something else that stands there is in the way. -/
def makeFrom (place : List String) (isNew : Bool) :
    List String → Files → Except Problem Unit × Files
  | [], fs => (.ok (), fs)
  | name :: names, fs =>
    if name = "" ∨ name = "." then makeFrom place isNew names fs
    else if name = ".." then makeFrom place.dropLast isNew names fs
    else if maxNameLength < name.utf8ByteSize then (.error .nameTooLong, fs)
    else
      let next := place ++ [name]
      match fs.get? next with
      | none => makeFrom next true names (fs.put next .folder)
      | some .folder => makeFrom next isNew names fs
      | some _ => (.error (if isNew || names.all (· = "") then .occupied else .notFolder), fs)

/-- The names in front of the dots at the end, if there are such dots. -/
def beforeDots? (names : List String) : Option (List String) :=
  match names.reverse.dropWhile (· = "") with
  | "." :: rest => some (rest.dropWhile fun name => name = "" || name = ".").reverse
  | _ => none

/-- Make the folder at the end of a path and all the folders on the way. A folder with a dot behind
its name is not made, but those on the way are. -/
def makeFolders (path : String) (fs : Files) : Except Problem Unit × Files :=
  match fault? path, parts path with
  | some p, _ => (.error p, fs)
  | none, [""] => (.ok (), fs)
  | none, names =>
    let (start, names) := match names with
      | "" :: names => ([""], names)
      | names => ([], names)
    match beforeDots? names, fs.find path with
    | none, _ => makeFrom start false names fs
    | some _, .ok _ => (.ok (), fs)
    | some names, .error .missing =>
      let (made, fs) := makeFrom start false names.dropLast fs
      (do
        made
        let _ ← fs.find path, fs)
    | some _, .error p => (.error p, fs)

/-- Put something at the end of a path after the folders on the way have been made. Where that is
not possible nothing changes. -/
def putAt (path : String) (e : Entry) (fs : Files) : Files :=
  match fs.makeFolders path with
  | (.error _, _) => fs
  | (.ok (), made) =>
    match made.locate path with
    | .error _ => fs
    | .ok place => made.put place e

end Files

end DelegatedVoting
