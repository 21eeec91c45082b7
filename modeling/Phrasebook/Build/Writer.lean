import Phrasebook.Build.Listing
import Phrasebook.Pack.Basic

/-!
Writes a build. The pack and its graph are the latest build and replace the one before; on request
copies are kept under the time of writing. The graph is drawn first, and both files are written
under other names and then moved, so that a reader never sees a file half written.
-/

namespace Phrasebook.Build

/-- A way to make a file out of the text of a graph. Drawing may succeed without leaving a file. The
failure is that of a file which cannot be written. -/
structure Renderer where
  extension : String
  draw : String → Except Failure (Option (List UInt8))
  blocked : Failure

/-- Leaves the text of the graph as it is. -/
def Renderer.text : Renderer := ⟨"dot", fun graph => .ok (some (Text.utf8 graph)), .io⟩

structure Written where
  latestPack : String
  latestGraph : String
  keptPack : Option String
  keptGraph : Option String
  deriving DecidableEq, Repr

def Written.toJson (w : Written) : Json :=
  .object [("latestJson", .string w.latestPack), ("latestGraph", .string w.latestGraph),
    ("snapshotJson", .ofOption .string w.keptPack), ("snapshotGraph", .ofOption .string w.keptGraph)]

/-- Work on the files of a tree, which may fail half-way; what was done up to there stays. -/
abbrev Work := EStateM Failure FileTree

namespace Work

/-- A step that gives the tree behind it, or fails. -/
def step (f : FileTree → Option FileTree) : Work Unit := fun t =>
  match f t with
  | some t => .ok () t
  | none => .error .io t

end Work

/-- Draws the graph into a file. When that fails, what is there is removed. -/
def drawTo (r : Renderer) (cwd : Place) (graph path : String) (seconds : Int) : Work Unit := fun t =>
  let failed (f : Failure) : EStateM.Result Failure FileTree Unit :=
    .error f ((t.removeFile? cwd path).getD t)
  match r.draw graph with
  | .error f => failed f
  | .ok none => .ok () t
  | .ok (some content) =>
    match t.write? cwd path content seconds with
    | some t => .ok () t
    | none => failed r.blocked

/-- Writes a file under the extension "tmp" and moves it. -/
def writeWhole (cwd : Place) (root name : String) (content : List UInt8) (seconds : Int) :
    Work Unit := do
  let temporary := FileTree.join root (FileTree.withExtension name "tmp")
  Work.step fun t => t.write? cwd temporary content seconds
  Work.step fun t => t.rename? cwd temporary (FileTree.join root name)

/-- Copies what a file holds. -/
def copyFile (cwd : Place) (source target : String) (seconds : Int) : Work Unit :=
  Work.step fun t => (t.read? cwd source).bind fun content => t.write? cwd target content seconds

/-- Writes the latest build into the folder `root`, and with `keep` the copies; `now` is in
milliseconds since 1970. -/
def write (r : Renderer) (cwd : Place) (root : String) (pack : Pack) (graph : String) (keep : Bool)
    (now : Int) : Work Written := do
  let seconds := Calendar.secondsOfMillis now
  let content := Text.utf8 pack.text
  let path (name : String) : String := FileTree.join root name
  let latestPack := latestStem ++ ".json"
  let latestGraph := latestStem ++ "." ++ r.extension
  let drawn := path (latestGraph ++ ".tmp")
  Work.step fun t => t.makeFolders? cwd root
  drawTo r cwd graph drawn seconds
  fun t =>
    match writeWhole cwd root latestPack content seconds t with
    | .ok () t => .ok () t
    | .error f t => .error f ((t.removeFile? cwd drawn).getD t)
  Work.step fun t => t.rename? cwd drawn (path latestGraph)
  if keep then
    let stem := keptFront ++ Calendar.fileStamp now
    let keptPack := path (stem ++ ".json")
    let keptGraph := path (stem ++ "." ++ r.extension)
    Work.step fun t => t.write? cwd keptPack content seconds
    copyFile cwd (path latestGraph) keptGraph seconds
    return ⟨path latestPack, path latestGraph, some keptPack, some keptGraph⟩
  else return ⟨path latestPack, path latestGraph, none, none⟩

end Phrasebook.Build
