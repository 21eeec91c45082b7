import Phrasebook.Json.Printer

/-!
Groups. The groups of a matcher tell, capture by capture, in which categories the captured text is
looked up. An entry is the name of a category, a list of entries, or null; lists may be nested to
any depth.
-/

namespace Phrasebook

inductive Group where
  | name (category : String)
  | list (entries : List Group)
  | null
  deriving Inhabited

namespace Group

mutual

/-- The names in an entry, at any depth, in order of appearance. -/
def leaves : Group → List String
  | .name category => [category]
  | .list entries => leavesOf entries
  | .null => []

def leavesOf : List Group → List String
  | [] => []
  | g :: more => leaves g ++ leavesOf more

end

/-- Some name in the groups is exactly this one. -/
def mention (groups : List Group) (category : String) : Bool := (leavesOf groups).contains category

mutual

/-- Every name changed by `f`; the shape stays. -/
def mapNames (f : String → String) : Group → Group
  | .name category => .name (f category)
  | .list entries => .list (mapNamesOf f entries)
  | .null => .null

def mapNamesOf (f : String → String) : List Group → List Group
  | [] => []
  | g :: more => mapNames f g :: mapNamesOf f more

end

mutual

/-- Replaces the names equal to `old` and counts them. -/
def relabel (old new : String) : Group → Group × Nat
  | .name category => if category = old then (.name new, 1) else (.name category, 0)
  | .list entries =>
    let (entries, count) := relabelAll old new entries
    (.list entries, count)
  | .null => (.null, 0)

def relabelAll (old new : String) : List Group → List Group × Nat
  | [] => ([], 0)
  | g :: more =>
    let (g, here) := relabel old new g
    let (more, there) := relabelAll old new more
    (g :: more, here + there)

end

mutual

/-- The names and nulls of an entry, each with the positions, counted from one, that lead to it. -/
def entriesAt (path : List Nat) : Group → List (List Nat × Option String)
  | .name category => [(path, some category)]
  | .list entries => entriesFrom path 1 entries
  | .null => [(path, none)]

def entriesFrom (path : List Nat) (position : Nat) :
    List Group → List (List Nat × Option String)
  | [] => []
  | g :: more => entriesAt (path ++ [position]) g ++ entriesFrom path (position + 1) more

end

def pathEntries (groups : List Group) : List (List Nat × Option String) := entriesFrom [] 1 groups

/-- A name or null behind the positions that lead to it, with a colon after each. -/
def pathLabel (entry : List Nat × Option String) : String :=
  String.join (entry.1.map fun n => Text.decimal n ++ ":") ++ entry.2.getD "null"

/-- All labels, each between back quotes. -/
def labels (groups : List Group) : String :=
  " ".intercalate ((pathEntries groups).map fun e => "`" ++ pathLabel e ++ "`")

mutual

def toJson : Group → Json
  | .name category => .string category
  | .list entries => .array (toJsons entries)
  | .null => .null

def toJsons : List Group → List Json
  | [] => []
  | g :: more => toJson g :: toJsons more

end

def listToJson (groups : List Group) : Json := .array (toJsons groups)

mutual

def ofJson? : Json → Option Group
  | .string category => some (.name category)
  | .array items => (ofJsons? items).map .list
  | .null => some .null
  | _ => none

def ofJsons? : List Json → Option (List Group)
  | [] => some []
  | j :: more =>
    match ofJson? j with
    | none => none
    | some g => (ofJsons? more).map (g :: ·)

end

/-- A list of entries, with at most `depth` brackets open at a time. -/
def listOfJson? (depth : Nat) (j : Json) : Option (List Group) :=
  match j with
  | .array items => if j.isSound depth then ofJsons? items else none
  | _ => none

/-- One entry in a list of matchers: a list is shown as its JSON. -/
def cellText : Group → String
  | .name category => category
  | .null => "null"
  | .list entries => (Group.list entries).toJson.compact

end Group

end Phrasebook
