import Phrasebook.Json.Basic

/-!
Records in JSON. A record is an object with a value to a name, or a list of the values in the order
of the names. Names that the record does not know are passed over; a known name must not come twice,
and a list must not be longer than the record.
-/

namespace Phrasebook.Json

/-- The values of a name among the fields of an object, in order. -/
def valuesOf (name : String) (fields : List (String × Json)) : List Json :=
  (fields.filter (·.1 == name)).map (·.2)

/-- The value of a name that may be absent; refused when the name is repeated. -/
def lone? (name : String) (fields : List (String × Json)) : Option (Option Json) :=
  match valuesOf name fields with
  | [] => some none
  | [j] => some (some j)
  | _ => none

/-- The value of every name of a record, by name. -/
def named? (names : List String) (fields : List (String × Json)) : Option (List (Option Json)) :=
  names.mapM fun name => lone? name fields

/-- The value of every name of a record, by position; those behind the end of the list are absent. -/
def positional? (names : List String) (items : List Json) : Option (List (Option Json)) :=
  if items.length ≤ names.length then
    some (items.map some ++ List.replicate (names.length - items.length) none)
  else none

def record? (names : List String) : Json → Option (List (Option Json))
  | .object fields => named? names fields
  | .array items => positional? names items
  | _ => none

/-- A value that the record cannot do without. -/
def required? {α : Type} (decode : Json → Option α) : Option Json → Option α
  | some j => decode j
  | none => none

/-- A value with a default for its absence. -/
def orElse? {α : Type} (fallback : α) (decode : Json → Option α) : Option Json → Option α
  | some j => decode j
  | none => some fallback

end Phrasebook.Json
