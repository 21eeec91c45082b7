import Phrasebook.Env.Basic
import Phrasebook.Settings
import Phrasebook.Text.Newline

/-!
The lenient reading of an environment file, for one that the strict reading refuses: every line that
assigns a known variable counts, and all other lines are passed over.
-/

namespace Phrasebook.Env

/-- The text behind the word "export" and a space, if it begins so. -/
def dropExport (s : String) : String :=
  match Text.dropFront? "export ".toList s.toList with
  | some rest => String.ofList rest
  | none => s

/-- The text between quotes that stand at both ends. -/
def unquote? (s : String) : Option String :=
  match s.toList with
  | q :: rest =>
    if (q = '"' ∨ q = '\'') ∧ rest.getLast? = some q then some (String.ofList rest.dropLast) else none
  | [] => none

/-- A value without the comment that a space and a hash sign begin. -/
def dropComment (s : String) : String :=
  let front :=
    match Text.cutAt? [' ', '#'] s.toList with
    | some (front, _) => front
    | none => s.toList
  String.ofList (Text.trimRight front)

/-- The assignment of a known variable in a line. -/
def lenientLine? (line : String) : Option (String × String) := do
  let line := Text.trim line
  if line.isEmpty || line.startsWith "#" then none
  let (key, value) ← Text.splitOnce? '=' (dropExport line)
  let key := Text.trim key
  if !Settings.variableNames.contains key then none
  let value := Text.trim value
  return (key, (unquote? value).getD (dropComment value))

/-- A variable with a value that can be read and is not blank. -/
def hasValue (env : Env) (name : String) : Bool :=
  ((env.get? name).bind Text.nonBlank?).isSome

/-- Assigns the variables that have no value yet, line by line. -/
def loadLenient (env : Env) (text : String) : Option Env :=
  ((Text.lines text).filterMap lenientLine?).foldlM
    (fun env (key, value) => if env.hasValue key then some env else env.set key value) env

end Phrasebook.Env
