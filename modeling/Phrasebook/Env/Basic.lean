import Phrasebook.Text.Utf8

/-!
The environment: variables with their values. The first entry for a name counts. A value is any bytes but NUL; one
that is no text cannot be read, so that it counts for none.
-/

namespace Phrasebook

/-- What a variable holds. It need not be a text. -/
structure Env.Value where
  bytes : List UInt8
  noNul : 0 ∉ bytes

abbrev Env := List (String × Env.Value)

namespace Env

def Value.text? (v : Value) : Option String := Text.ofUtf8? v.bytes

/-- A text as a value, unless it has a NUL in it. -/
def Value.ofText? (s : String) : Option Value :=
  if h : 0 ∈ Text.utf8 s then none else some ⟨Text.utf8 s, h⟩

/-- The value of a variable that has one and whose value can be read. -/
def get? (env : Env) (name : String) : Option String := (env.lookup name).bind Value.text?

/-- Sets a variable. With a NUL in the value there is no environment behind it: the program ends there. -/
def set (env : Env) (name value : String) : Option Env :=
  (Value.ofText? value).map fun v => (name, v) :: env

/-- Sets a variable that has no value to be read yet. -/
def setNew (env : Env) (name value : String) : Option Env :=
  if (env.get? name).isSome then some env else env.set name value

end Env

end Phrasebook
