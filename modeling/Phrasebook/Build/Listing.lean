import Phrasebook.Calendar.Format
import Phrasebook.Failure
import Phrasebook.FileTree.Basic
import Phrasebook.Text.Percent

/-!
The list of the builds in a folder: the latest one, then the kept ones by descending name.
-/

namespace Phrasebook.Build

def latestStem : String := "latest"

/-- How the names of kept builds begin. -/
def keptFront : String := "translation_file_"

structure Entry where
  name : String
  size : Nat
  modified : Int
  url : String
  graph : Option String
  deriving DecidableEq, Repr

def Entry.toJson (e : Entry) : Json :=
  .object [("name", .string e.name), ("size", .ofNat e.size),
    ("modified", .string (Calendar.listingTime e.modified)), ("url", .string e.url),
    ("graph", .ofOption .string e.graph)]

/-- The entry of a name; it fails when the name leads nowhere. A folder is listed with what is told of it. The graph
of a build has the same name with another extension. -/
def entryOf (t : FileTree) (cwd : Place) (root baseUrl graphExt name : String) :
    Except Failure Entry :=
  let graph := FileTree.withExtension name graphExt
  let entry (size : Nat) (modified : Int) : Entry :=
    { name, size, modified
      url := baseUrl ++ Text.percentEncode name
      graph := if t.isFile cwd (FileTree.join root graph) then some graph else none }
  match t.find cwd (FileTree.join root name) with
  | .error _ => .error .io
  | .ok p =>
    match t.node? p with
    | some (.file content modified) => .ok (entry content.length modified)
    | some .folder => .ok (entry (t.told p).size (t.told p).modified)
    | _ => .error .io

def isKept (name : String) : Bool := name.startsWith keptFront && name.endsWith ".json"

/-- The builds in the folder `root`. A folder that is missing holds none. -/
def list (t : FileTree) (cwd : Place) (root baseUrl graphExt : String) :
    Except Failure (List Entry) :=
  let latest := latestStem ++ ".json"
  let latestNames := if t.isFile cwd (FileTree.join root latest) then [latest] else []
  let kept := (((t.list? cwd root).getD []).filter isKept).reverse
  (latestNames ++ kept).mapM (entryOf t cwd root baseUrl graphExt)

end Phrasebook.Build
