import Phrasebook.Matcher.Draft
import Phrasebook.Store.Matchers

/-!
Renaming a category. The matchers of the category and all groups that name it change together, and
every matcher that changes has one line in the log. A preview tells beforehand how many there are.
-/

namespace Phrasebook

/-- How many matchers a renaming concerns: by their category, and by their groups. -/
structure RenameReport where
  direct : Nat
  nested : Nat
  deriving DecidableEq, Repr

def RenameReport.toJson (r : RenameReport) : Json :=
  .object [("direct", .ofNat r.direct), ("nested", .ofNat r.nested)]

namespace Store

/-- The names must be there and differ, and the new one must not be too long. -/
def checkNames (old new : String) : Except Failure Unit :=
  if old.isEmpty || new.isEmpty then .error (.invalidOperation "category names must not be empty")
  else if old = new then .error (.invalidOperation "old and new category are the same")
  else Failure.ofFaults ((Draft.categoryFaults new).map Draft.Fault.toFault)

def previewRename (s : Store) (old new : String) : Except Failure RenameReport := do
  checkNames old new
  let nested ← s.matchersNaming old
  return ⟨s.rows.countP (·.category == old), nested.length⟩

/-- A row under the new name; `nested` are the matchers whose groups change. -/
def Row.relabel (old new : String) (nested : List Matcher) (r : Row) : Row :=
  { r with
    category := if r.category = old then new else r.category
    groups :=
      match nested.find? (·.id == r.id) with
      | some m => groupsText (Group.relabelAll old new m.groups).1
      | none => r.groups }

/-- The matchers of two lists, each of them once, ascending by id. -/
def mergeById (ms more : List Matcher) : List Matcher :=
  (ms ++ more.filter fun m => !ms.any (·.id == m.id)).mergeSort fun a b => a.id ≤ b.id

def recordChanges (actor : String) (now : Int) (changed : List Matcher) (s : Store) :
    Except Failure Store :=
  changed.foldlM (fun s m => s.record actor .change .matcher m.id m.label now) s

/-- The category changes in the rows of the category, and the groups in those rows in which some name is
replaced. -/
def relabelRows (old new actor : String) (now : Int) (s : Store) :
    Except Failure (RenameReport × Store) := do
  checkNames old new
  let direct ← s.matchersIn old
  let naming ← s.matchersNaming old
  let nested := naming.filter fun m => (Group.relabelAll old new m.groups).2 != 0
  if s.groupsLocked && !nested.isEmpty then throw .database
  let renamed := { s with rows := s.rows.map (Row.relabel old new nested) }
  return (⟨s.rows.countP (·.category == old), nested.length⟩,
    ← recordChanges actor now (mergeById direct nested) renamed)

/-- Renames a category everywhere. -/
def rename (old new actor : String) (now : Int) : Op RenameReport :=
  transaction (relabelRows old new actor now)

end Store

end Phrasebook
