import Phrasebook.Text.Search
import Phrasebook.Text.Utf8

/-!
A tree of files, folders and symbolic links. Places are lists of names from the top; names such as
"a/b" are read from a working folder on, and links are followed wherever a path leads through them.
-/

namespace Phrasebook

/-- The names that lead from the top of the tree to a place. -/
abbrev Place := List String

/-- What is at a place. The time of the last change of a file is in seconds since 1970. -/
inductive Node where
  | file (content : List UInt8) (modified : Int)
  | link (target : String)
  | folder
  deriving DecidableEq

/-- What the system tells of a folder: a size, and when it was last changed. -/
structure FolderFacts where
  size : Nat
  modified : Int
  deriving DecidableEq, Repr

/-- A tree, given by what is at each place. The top is always a folder. What is told of folders is no work of
this library, so it can be anything. -/
structure FileTree where
  nodes : List (Place × Node)
  told : Place → FolderFacts

namespace FileTree

/-- Why a path leads nowhere. -/
inductive Fault where
  | missing
  | notFolder
  | manyLinks
  deriving DecidableEq, Repr

/-- Why no text can be read at a path: it leads nowhere, or to a folder, or the bytes are no text. -/
inductive ReadFault where
  | path (f : Fault)
  | folder
  | encoding
  deriving DecidableEq, Repr

def Fault.message : Fault → String
  | missing => "No such file or directory (os error 2)"
  | notFolder => "Not a directory (os error 20)"
  | manyLinks => "Too many levels of symbolic links (os error 40)"

def ReadFault.message : ReadFault → String
  | path f => f.message
  | folder => "Is a directory (os error 21)"
  | encoding => "stream did not contain valid UTF-8"

/-- A tree in which nothing is told of folders. -/
def ofNodes (nodes : List (Place × Node)) : FileTree := ⟨nodes, fun _ => ⟨0, 0⟩⟩

def empty : FileTree := ofNodes []

def node? (t : FileTree) (p : Place) : Option Node :=
  if p.isEmpty then some .folder else t.nodes.lookup p

/-- The tree with another node at a place. -/
def put (t : FileTree) (p : Place) (n : Node) : FileTree :=
  { t with nodes := (p, n) :: t.nodes.filter (·.1 != p) }

def remove (t : FileTree) (p : Place) : FileTree := { t with nodes := t.nodes.filter (·.1 != p) }

/-- The names in a path. A slash at the end asks for a folder, as a dot behind it would. -/
def names (path : String) : List String :=
  let pieces := (Text.splitAll '/' path).filter fun s => !s.isEmpty
  if path.endsWith "/" && !pieces.isEmpty then pieces ++ ["."] else pieces

def isAbsolute (path : String) : Bool := path.startsWith "/"

/-- Where a path begins. -/
def origin (cwd : Place) (path : String) : Place := if isAbsolute path then [] else cwd

/-- The place that names lead to from a folder. At most `links` links are followed on the way. With
`create` the last name may be free. -/
def walk (t : FileTree) (create : Bool) (links : Nat) (base : Place) (todo : List String) :
    Except Fault Place :=
  match todo with
  | [] => .ok base
  | name :: rest =>
    if name = "." then t.walk create links base rest
    else if name = ".." then t.walk create links base.dropLast rest
    else
      let here := base ++ [name]
      match t.node? here with
      | none => if create && rest.isEmpty then .ok here else .error .missing
      | some .folder => t.walk create links here rest
      | some (.file ..) => if rest.isEmpty then .ok here else .error .notFolder
      | some (.link target) =>
        match links with
        | 0 => .error .manyLinks
        | links + 1 => t.walk create links (origin base target) (names target ++ rest)
termination_by (links, todo.length)

def linkLimit : Nat := 40

/-- The place that a path leads to, behind all links. -/
def find (t : FileTree) (cwd : Place) (path : String) : Except Fault Place :=
  if path.isEmpty then .error .missing
  else t.walk false linkLimit (origin cwd path) (names path)

/-- What a path leads to. -/
def nodeAt? (t : FileTree) (cwd : Place) (path : String) : Option Node :=
  match t.find cwd path with
  | .ok p => t.node? p
  | .error _ => none

def isFile (t : FileTree) (cwd : Place) (path : String) : Bool :=
  match t.nodeAt? cwd path with
  | some (.file ..) => true
  | _ => false

/-- The content of the file that a path leads to. -/
def read? (t : FileTree) (cwd : Place) (path : String) : Option (List UInt8) :=
  match t.nodeAt? cwd path with
  | some (.file content _) => some content
  | _ => none

/-- The text of the file that a path leads to, or why there is none. -/
def readText (t : FileTree) (cwd : Place) (path : String) : Except ReadFault String :=
  match t.find cwd path with
  | .error f => .error (.path f)
  | .ok p =>
    match t.node? p with
    | some (.file content _) =>
      match Text.ofUtf8? content with
      | some text => .ok text
      | none => .error .encoding
    | _ => .error .folder

def readText? (t : FileTree) (cwd : Place) (path : String) : Option String :=
  (t.readText cwd path).toOption

/-- Writes a file, which is made when there is none. -/
def write? (t : FileTree) (cwd : Place) (path : String) (content : List UInt8) (now : Int) :
    Option FileTree :=
  if path.isEmpty then none
  else
    match t.walk true linkLimit (origin cwd path) (names path) with
    | .ok p => if t.node? p == some .folder then none else some (t.put p (.file content now))
    | .error _ => none

/-- Makes the folders that names lead through, as far as they are missing. -/
def makeFoldersFrom (t : FileTree) (base : Place) : List String → Option FileTree
  | [] => some t
  | name :: rest =>
    match t.walk false linkLimit base [name] with
    | .ok p => if t.node? p == some .folder then t.makeFoldersFrom p rest else none
    | .error _ =>
      let here := base ++ [name]
      if (t.node? here).isSome then none else (t.put here .folder).makeFoldersFrom here rest

def makeFolders? (t : FileTree) (cwd : Place) (path : String) : Option FileTree :=
  t.makeFoldersFrom (origin cwd path) (names path)

/-- A path one name longer. -/
def join (path name : String) : String :=
  if isAbsolute name || path.isEmpty then name
  else if path.endsWith "/" then path ++ name
  else path ++ "/" ++ name

/-- The folder that a path lies in, as far as it is written in the path. -/
def parentOf (path : String) : String :=
  let pieces := (Text.splitAll '/' path).filter fun s => !s.isEmpty && s != "."
  let front := "/".intercalate pieces.dropLast
  if isAbsolute path then "/" ++ front else front

/-- The place of a path itself: links are followed up to the last name only. -/
def entryAt? (t : FileTree) (cwd : Place) (path : String) : Option Place :=
  match (names path).getLast? with
  | none => none
  | some name =>
    match t.walk false linkLimit (origin cwd path) (names path).dropLast with
    | .ok p => if t.node? p == some .folder then some (p ++ [name]) else none
    | .error _ => none

/-- Removes a file or a link. -/
def removeFile? (t : FileTree) (cwd : Place) (path : String) : Option FileTree :=
  match t.entryAt? cwd path with
  | some p =>
    match t.node? p with
    | some .folder | none => none
    | some _ => some (t.remove p)
  | none => none

/-- Moves a file or link to another path, in the stead of a file or link that is there. Folders are never moved
by this library, and a move of one is refused here also where the system would allow it. -/
def rename? (t : FileTree) (cwd : Place) (source target : String) : Option FileTree :=
  match t.entryAt? cwd source, t.entryAt? cwd target with
  | some p, some q =>
    match t.node? p with
    | some .folder | none => none
    | some n => if t.node? q == some .folder then none else some ((t.remove p).put q n)
  | _, _ => none

/-- The names in the folder at a place, in ascending order. -/
def children (t : FileTree) (p : Place) : List String :=
  (t.nodes.filterMap fun (q, _) => if q.dropLast = p then q.getLast? else none).mergeSort
    fun a b => !(b < a)

/-- The names in the folder that a path leads to. -/
def list? (t : FileTree) (cwd : Place) (path : String) : Option (List String) :=
  match t.find cwd path with
  | .ok p => if t.node? p == some .folder then some (t.children p) else none
  | .error _ => none

/-- The part of a name behind its last dot, unless the name has no other dot than one in front. -/
def extension? (name : String) : Option String :=
  match Text.cutAt? ['.'] name.toList.reverse with
  | some (_, []) | none => none
  | some (ext, _) => some (String.ofList ext.reverse)

/-- A name without its extension. -/
def stem (name : String) : String :=
  match extension? name with
  | some ext => String.ofList (name.toList.take (name.length - ext.length - 1))
  | none => name

/-- A name with another extension; an empty one is left out with its dot. -/
def withExtension (name ext : String) : String :=
  if ext.isEmpty then stem name else stem name ++ "." ++ ext

end FileTree

end Phrasebook
