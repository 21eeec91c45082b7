import Phrasebook.Calendar.Format
import Phrasebook.Json.Basic

/-!
The vocabulary of the log: what was done, to what kind of thing, by whom and when.
-/

namespace Phrasebook.Audit

inductive Action where
  | addition
  | change
  | deletion
  deriving DecidableEq, Repr

inductive Subject where
  | matcher
  | phrase
  deriving DecidableEq, Repr

def Action.code : Action → Int
  | addition => 1
  | change => 2
  | deletion => 3

def Action.ofCode? : Int → Option Action
  | 1 => some addition
  | 2 => some change
  | 3 => some deletion
  | _ => none

def Action.name : Action → String
  | addition => "addition"
  | change => "change"
  | deletion => "deletion"

/-- The word for the action in a message. -/
def Action.verb : Action → String
  | addition => "created"
  | change => "updated"
  | deletion => "deleted"

def Subject.name : Subject → String
  | matcher => "matcher"
  | phrase => "translation_data"

def Subject.ofName? : String → Option Subject
  | "matcher" => some matcher
  | "translation_data" => some phrase
  | _ => none

/-- One line of the log. The label is how the object was shown at the time, which is given in
milliseconds since 1970. -/
structure Entry where
  id : Int
  actor : String
  action : Action
  subject : Subject
  object : Int
  label : String
  time : Int
  deriving DecidableEq, Repr

def Entry.toJson (e : Entry) : Json :=
  .object [("id", .ofInt e.id), ("actor", .string e.actor), ("action", .string e.action.name),
    ("objectType", .string e.subject.name), ("objectId", .ofInt e.object),
    ("objectRepr", .string e.label), ("actionTime", .string (Calendar.isoMillis "Z" e.time))]

end Phrasebook.Audit
