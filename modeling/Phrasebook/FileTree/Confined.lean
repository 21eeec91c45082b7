import Phrasebook.Failure
import Phrasebook.FileTree.Basic
import Phrasebook.Text.Blank

/-!
Paths confined to a folder. A path that is given from outside may lead, links included, only to
places in or below a folder. Names that step upwards are refused before anything is looked up.
-/

namespace Phrasebook.FileTree

def escapes (relative : String) : Failure :=
  .invalidOperation ("path escapes build root: " ++ relative)

/-- The place that a path leads to from the folder `root`. Slashes in front do not count. -/
def confined (t : FileTree) (cwd : Place) (root relative : String) : Except Failure Place :=
  let path := Text.trimCharLeft '/' relative
  if (names path).contains ".." then .error (escapes relative)
  else
    match t.find cwd root with
    | .error _ => .error .io
    | .ok base =>
      if t.node? base ≠ some .folder then .error .io
      else
        match t.walk false linkLimit base (names path) with
        | .error _ => .error .io
        | .ok p => if base.isPrefixOf p then .ok p else .error (escapes relative)

end Phrasebook.FileTree
