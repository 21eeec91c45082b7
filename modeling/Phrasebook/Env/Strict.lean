import Phrasebook.Character.Alphanumeric
import Phrasebook.Env.Basic
import Phrasebook.Env.Line

/-!
The strict reading of an environment file: assignments with quoted values, escapes and references to
other variables. The first line that is no assignment ends the file; what was set before it stays.
-/

namespace Phrasebook.Env

/-- How far a reference to a variable has been read. -/
inductive Reference where
  | none
  /-- Behind a dollar sign. -/
  | open_
  /-- Behind a dollar sign and a brace. -/
  | braced
  deriving DecidableEq, Repr

/-- The state of reading a value. Output and name are held backwards. -/
structure ValueState where
  output : List Char := []
  name : List Char := []
  reference : Reference := .none
  strong : Bool := false
  weak : Bool := false
  escaped : Bool := false
  ended : Bool := false

/-- Puts the value of the referred variable into the output. -/
def ValueState.resolve (s : ValueState) (lookup : String → String) : ValueState :=
  { s with
    output := (lookup (String.ofList s.name.reverse)).toList.reverse ++ s.output
    name := []
    reference := .none }

def ValueState.push (s : ValueState) (c : Char) : ValueState := { s with output := c :: s.output }

def isKnownEscape (c : Char) : Bool :=
  c == '\\' || c == '\'' || c == '"' || c == '$' || c == ' '

/-- One character inside a reference. Outside braces the name ends at the first character that is
neither letter nor number; that character is taken as it is, but a dollar sign begins anew. -/
def ValueState.inReference (s : ValueState) (lookup : String → String) (c : Char) : ValueState :=
  if Character.isAlphanumeric c then { s with name := c :: s.name }
  else if s.reference = .braced then
    if c = '\x7d' then s.resolve lookup else { s with name := c :: s.name }
  else if c = '\x7b' ∧ s.name.isEmpty then { s with reference := .braced }
  else if c = '$' then { s.resolve lookup with reference := .open_ }
  else (s.resolve lookup).push c

/-- One character of a value; nothing when it is malformed there. A hash sign behind blanks ends the
value, which is told by the flag. -/
def ValueState.step (s : ValueState) (lookup : String → String) (c : Char) :
    Option (ValueState × Bool) :=
  let go (s : ValueState) : Option (ValueState × Bool) := some (s, false)
  if s.ended then
    if c = ' ' ∨ c = '\t' then go s else if c = '#' then some (s, true) else none
  else if s.escaped then
    if isKnownEscape c then go { s.push c with escaped := false }
    else if c = 'n' then go { s.push '\n' with escaped := false }
    else none
  else if s.strong then if c = '\'' then go { s with strong := false } else go (s.push c)
  else if s.reference ≠ .none then go (s.inReference lookup c)
  else if c = '$' then go { s with reference := .open_ }
  else if s.weak then
    if c = '"' then go { s with weak := false }
    else if c = '\\' then go { s with escaped := true }
    else go (s.push c)
  else if c = '\'' then go { s with strong := true }
  else if c = '"' then go { s with weak := true }
  else if c = '\\' then go { s with escaped := true }
  else if c = ' ' ∨ c = '\t' then go { s with ended := true }
  else go (s.push c)

/-- All characters of a value, up to a comment. -/
def ValueState.run (lookup : String → String) : ValueState → List Char → Option ValueState
  | s, [] => some s
  | s, c :: rest =>
    match s.step lookup c with
    | none => none
    | some (s, true) => some s
    | some (s, false) => s.run lookup rest

def readValue (lookup : String → String) (cs : List Char) : Option String :=
  match ValueState.run lookup {} cs with
  | none => none
  | some s =>
    if s.reference = .braced ∨ s.strong ∨ s.weak then none
    else some (String.ofList (s.resolve lookup).output.reverse)

def isKeyStart (c : Char) : Bool := c.isAlpha || c == '_'

def isKeyPart (c : Char) : Bool := c.isAlpha || c.isDigit || c == '_' || c == '.'

def readKey (cs : List Char) : Option (String × List Char) :=
  match cs with
  | c :: _ =>
    if isKeyStart c then some (String.ofList (cs.takeWhile isKeyPart), cs.dropWhile isKeyPart)
    else none
  | [] => none

def dropEqual : List Char → Option (List Char)
  | '=' :: rest => some rest
  | _ => none

/-- The key of an assignment and what is behind its equality sign. The word "export" may stand in
front of the key, unless it is the key. -/
def readAssignment (cs : List Char) : Option (String × List Char) := do
  let (key, rest) ← readKey cs
  let rest := Text.trimLeft rest
  match dropEqual rest with
  | some rest => return (key, rest)
  | none =>
    if key = "export" then
      let (key, rest) ← readKey rest
      return (key, ← dropEqual (Text.trimLeft rest))
    else none

/-- What a line says. A value is missing when nothing but a comment is behind the equality sign. -/
inductive Statement where
  | nothing
  | assignment (key : String) (value : Option String)
  | malformed
  deriving DecidableEq, Repr

def readLine (lookup : String → String) (cs : List Char) : Statement :=
  match Text.trimLeft (Text.trimRight cs) with
  | [] => .nothing
  | '#' :: _ => .nothing
  | cs =>
    match readAssignment cs with
    | none => .malformed
    | some (key, rest) =>
      match Text.trimLeft rest with
      | [] => .assignment key none
      | '#' :: _ => .assignment key none
      | rest =>
        match readValue lookup rest with
        | some value => .assignment key (some value)
        | none => .malformed

/-- The value of a variable that is referred to: from the environment first, else from the file as
read so far. -/
def referred (get : String → Option String) (file : List (String × String)) (name : String) : String :=
  (get name).getD ((file.lookup name).getD "")

/-- Sets what the lines assign, as long as they are well-formed; tells whether all of them were. There is no
environment behind a value with a NUL in it. -/
def runLines (env : Env) (file : List (String × String)) : List Line → Option (Env × Bool)
  | [] => some (env, true)
  | .fault :: _ => some (env, false)
  | .text cs :: more =>
    match readLine (referred env.get? file) cs with
    | .nothing => runLines env file more
    | .malformed => some (env, false)
    | .assignment key value =>
      match env.setNew key (value.getD "") with
      | some env => runLines env ((key, value.getD "") :: file) more
      | none => none

def loadStrict (env : Env) (bytes : List UInt8) : Option (Env × Bool) := runLines env [] (lines bytes)

end Phrasebook.Env
