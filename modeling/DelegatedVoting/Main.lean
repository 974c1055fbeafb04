import DelegatedVoting.Daemon
import DelegatedVoting.Gateway.Line
import Std.Time.DateTime.Timestamp

/-!
# The program

A node that answers the requests on the lines of its input until the input ends, and keeps its
tables in a file. A client finds no node, since there is no network here.
-/

namespace DelegatedVoting.Program

open Gateway

/-- The variables of the environment that matter. -/
def environment : IO (String → Option String) := do
  let names := Daemon.filterVariable :: CommandLine.variableNames
  let given ← names.mapM fun name => do pure (name, ← IO.getEnv name)
  pure fun name => (given.lookup name).join

/-- The seconds of the clock. -/
def now : IO Timestamp := do
  let t ← Std.Time.Timestamp.now
  pure (UInt64.ofNat t.toSecondsSinceUnixEpoch.val.toNat)

/-- The bytes of a file, if it can be read. -/
def bytesAt (path : String) : IO (Option Bytes) := do
  try pure (some (← IO.FS.readBinFile path).toList) catch _ => pure none

/-- The files with the text at a path, if there is one. -/
def withText (path : String) (fs : Files) : IO Files := do
  match (← bytesAt path).map Text.Utf8.decode with
  | some (.ok text) => pure (fs.putAt path (.text text))
  | _ => pure fs

/-- The files with what stands at the path of a data folder, if there is something. -/
def withTables (path : String) (fs : Files) : IO Files := do
  let file := path ++ "/" ++ DataFolder.fileName
  match ← bytesAt file, ← bytesAt path with
  | some bytes, _ => pure (fs.putAt file (DataFolder.entryOf bytes))
  | none, some bytes => pure (fs.putAt path (DataFolder.entryOf bytes))
  | none, none => pure fs

/-- The files that a node looks at. -/
def filesFor (s : Settings) : IO Files := do
  let fs ← match s.config with
    | some path => withText path .empty
    | none => pure .empty
  match Daemon.configuration s fs with
  | .ok c => withTables c.dataDir fs
  | .error _ => pure fs

/-- Write the tables of a node to its file. -/
def save (n : Node) : IO Unit := do
  IO.FS.createDirAll n.config.dataDir
  IO.FS.writeBinFile (n.config.dataDir ++ "/" ++ DataFolder.fileName)
    ⟨(DataFolder.bytesOf n.store).toArray⟩

/-- Answer the requests on the lines of the input. -/
partial def serve (input output : IO.FS.Stream) (start : Nat) (n : Node) : IO Unit := do
  let line ← input.getLine
  if line.isEmpty then return
  let line := String.ofList (line.toList.filter fun c => c ≠ '\n' && c ≠ '\r')
  let name := ProposalId.ofRandom? (← IO.getRandomBytes 16).toList
  match Request.ofLine? line, name with
  | some request, some name =>
    let moment : Moment := ⟨← now, name, ((← IO.monoMsNow) - start) / 1000, 0⟩
    match n.serve moment request with
    | some (response, n) =>
      save n
      for l in response.lines do output.putStrLn l
      output.flush
      serve input output start n
    | none => return
  | _, _ => serve input output start n

/-- Tell how the program ends. -/
def finish (o : Daemon.Outcome) : IO UInt32 := do
  for l in o.log do IO.println (Daemon.written l)
  match o.document with
  | some document => IO.println (String.ofList document.write)
  | none => pure ()
  match o.error with
  | some message => IO.eprintln ("Error: " ++ message)
  | none => pure ()
  pure (UInt32.ofNat o.code)

/-- Run a node. -/
def runNode (s : Settings) (environment : String → Option String) : IO UInt32 := do
  match Daemon.boot s environment (← filesFor s) with
  | .ended o => finish o
  | .running n _ before after =>
    for l in before do IO.println (Daemon.written l)
    save n
    serve (← IO.getStdin) (← IO.getStdout) (← IO.monoMsNow) n
    finish { code := 0, log := after }

/-- Do what the arguments and the environment ask for. -/
def run (arguments : List String) : IO UInt32 := do
  let environment ← environment
  match CommandLine.parse arguments environment with
  | .ok ⟨s, .runNode⟩ => runNode s environment
  | .ok ⟨_, .client url action⟩ => finish (Daemon.client url action none)
  | .error stop => finish (.ofStop stop)

end DelegatedVoting.Program

/-- The program. -/
def main (arguments : List String) : IO UInt32 := DelegatedVoting.Program.run arguments
