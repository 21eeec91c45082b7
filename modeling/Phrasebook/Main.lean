import Phrasebook.Cli.Run
import Std.Time.DateTime.Timestamp

/-!
The program. It reads the files that a run may ask for into a tree, carries out the run, and writes
back what has changed. Graphs are not drawn and notices are not sent from here. A site is served to
one client that speaks through the standard streams.
-/

namespace Phrasebook.Program

def pathText (p : Place) : String := "/" ++ "/".intercalate p

/-- The place that a path names, with its upward steps taken. -/
def placeOf (cwd : Place) (path : String) : Place :=
  (FileTree.names path).foldl (fun p name =>
    if name = "." then p else if name = ".." then p.dropLast else p ++ [name])
    (FileTree.origin cwd path)

def entryAt (p : Place) : IO.FS.DirEntry := ⟨pathText p.dropLast, p.getLast?.getD ""⟩

/-- Puts a file, or a folder with all that is in it, into a tree. What cannot be read is left out. -/
partial def mountBelow (t : FileTree) (p : Place) : IO FileTree := do
  let path := (entryAt p).path
  try
    let info ← path.metadata
    if info.type == .dir then
      let names := (← path.readDir).toList.map (·.fileName)
      let facts : FolderFacts := ⟨info.byteSize.toNat, info.modified.sec⟩
      let t := { t.put p .folder with told := fun q => if q == p then facts else t.told q }
      names.foldlM (fun t name => mountBelow t (p ++ [name])) t
    else
      let content ← IO.FS.readBinFile path
      return t.put p (.file content.toList info.modified.sec)
  catch _ => return t

/-- Puts what is at a place into a tree, together with the folders above it. -/
def mount (t : FileTree) (p : Place) : IO FileTree := do
  let above := (List.range p.length).map fun n => p.take n
  let mut t := t
  for q in above do
    if !q.isEmpty && (← (entryAt q).path.isDir) then t := t.put q .folder
  if p.isEmpty then return t else mountBelow t p

/-- The files from which the environment is completed. -/
def mountVariables (cwd : Place) : IO FileTree :=
  ((Env.ancestors cwd).flatMap fun p => [p ++ [".env.local"], p ++ [".env"]]).foldlM mount .empty

/-- The files that settings and words name. -/
def mountNamed (t : FileTree) (cwd : Place) (s : Settings) (words : List String) : IO FileTree :=
  ((s.databasePath :: s.buildRoot :: s.packsDir :: words).map (placeOf cwd)).foldlM mount t

def writeNode (p : Place) : Node → IO Unit
  | .folder => IO.FS.createDirAll (entryAt p).path
  | .file content _ => do
    IO.FS.createDirAll (entryAt p.dropLast).path
    IO.FS.writeBinFile (entryAt p).path ⟨content.toArray⟩
  | .link _ => return

/-- Writes back what differs between two trees. -/
def store (before after : FileTree) : IO Unit := do
  for (p, n) in after.nodes.reverse do
    if before.node? p != some n then writeNode p n
  for (p, _) in before.nodes do
    if (after.node? p).isNone then IO.FS.removeFile (entryAt p).path

/-- The bytes of a request up to and with its first empty line. -/
partial def readRequest (input : IO.FS.Stream) (bytes : List UInt8) : IO (List UInt8) := do
  let more ← input.read 1
  if more.isEmpty then return bytes.reverse
  else
    let bytes := more.toList.reverse ++ bytes
    match bytes with
    | 10 :: 10 :: _ | 10 :: 13 :: 10 :: _ => return bytes.reverse
    | _ => readRequest input bytes

def usage : String :=
  "usage: phrasebook COMMAND, where COMMAND is one of " ++ ", ".intercalate Cli.Action.commands

def environment : IO Env :=
  Settings.variableNames.filterMapM fun name => do
    return ((← IO.getEnv name).bind Env.Value.ofText?).map (name, ·)

def finish (cwd : Place) (files : FileTree) : Cli.Outcome → IO Unit
  | .stopped .usage => IO.eprintln usage
  | .stopped .help => IO.println usage
  | .aborted => return
  | .done printed failure => do
    for document in printed do IO.println document.pretty
    if let some f := failure then IO.eprintln f.shown
  | .serve _ site => do
    let bytes ← readRequest (← IO.getStdin) []
    (← IO.getStdout).write ⟨(site.converse files cwd bytes).toArray⟩

end Phrasebook.Program

open Phrasebook Phrasebook.Program in
/-- Runs the program with the words of its command line. -/
def main (words : List String) : IO UInt32 := do
  let cwd := placeOf [] (← IO.currentDir).toString
  let now ← Std.Time.Timestamp.now
  let around : Cli.Surroundings :=
    { env := ← environment, cwd, now := now.toMillisecondsSinceUnixEpoch.toInt
      draw := fun _ _ => .error (.render "no program for drawing") }
  let files ← mountVariables cwd
  let some env := around.env.load files cwd | return Cli.Outcome.aborted.exitCode.toUInt32
  let before ← mountNamed files cwd (Cli.setupOf around env).settings words
  let (outcome, w) := Cli.run around before words
  store before w.files
  finish cwd w.files outcome
  return outcome.exitCode.toUInt32
