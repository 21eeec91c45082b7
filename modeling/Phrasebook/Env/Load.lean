import Phrasebook.Env.Lenient
import Phrasebook.Env.Strict
import Phrasebook.FileTree.Basic

/-!
The files that complete the environment: the nearest ".env.local", in the working folder or one of
six above it, and then the nearest ".env" above or in the working folder. The first may be malformed
and is then read leniently as well.
-/

namespace Phrasebook.Env

/-- How many folders above the working folder are searched for the local file. -/
def searchHeight : Nat := 6

/-- A folder and the folders above it, innermost first. -/
def ancestors (p : Place) : List Place :=
  (List.range (p.length + 1)).map fun n => p.take (p.length - n)

def localFile? (t : FileTree) (cwd : Place) : Option (List UInt8) :=
  ((ancestors cwd).take (searchHeight + 1)).findSome? fun p => t.read? p ".env.local"

/-- The nearest ".env". A path that leads nowhere for another reason than a missing file ends the
search. -/
def commonFileFrom? (t : FileTree) : List Place → Option (List UInt8)
  | [] => none
  | p :: more =>
    match t.find p ".env" with
    | .ok q =>
      match t.node? q with
      | some (.file content _) => some content
      | _ => commonFileFrom? t more
    | .error .missing => commonFileFrom? t more
    | .error _ => none

def loadLocal (env : Env) (bytes : List UInt8) : Option Env := do
  match ← loadStrict env bytes with
  | (env, true) => return env
  | (env, false) =>
    match Text.ofUtf8? bytes with
    | some text => loadLenient env text
    | none => return env

/-- Reads the common file as far as it is well-formed. -/
def loadCommon (env : Env) (bytes : List UInt8) : Option Env := (loadStrict env bytes).map Prod.fst

/-- The environment after both files have been read, or nothing when the program ends at a value with a NUL. -/
def load (t : FileTree) (cwd : Place) (env : Env) : Option Env := do
  let env ←
    match localFile? t cwd with
    | some bytes => loadLocal env bytes
    | none => some env
  match commonFileFrom? t (ancestors cwd) with
  | some bytes => loadCommon env bytes
  | none => some env

end Phrasebook.Env
