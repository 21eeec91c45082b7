import Phrasebook.Json.Printer

/-!
Why an operation did not succeed, with the code, the message and the details under which a failure
is reported.
-/

namespace Phrasebook

/-- What is wrong with one field of a form. -/
structure Fault where
  field : String
  message : String
  deriving DecidableEq, Repr

inductive Failure where
  | database
  | io
  | serialization
  | faults (faults : List Fault)
  | conflict (what : String)
  | matcherNotFound (id : Int)
  | phraseNotFound (id : Int)
  | render (why : String)
  | invalidOperation (why : String)
  | invalidArgument (why : String)
  deriving DecidableEq, Repr

namespace Fault

def shown (f : Fault) : String := f.field ++ ": " ++ f.message

def listShown (fs : List Fault) : String := "; ".intercalate (fs.map shown)

def toJson (f : Fault) : Json := .object [("field", .string f.field), ("message", .string f.message)]

def mention (fs : List Fault) (field : String) : Bool := fs.any (·.field == field)

end Fault

namespace Failure

def code : Failure → String
  | database => "DB_ERROR"
  | io => "IO_ERROR"
  | serialization => "SERIALIZATION_ERROR"
  | faults _ => "VALIDATION_ERROR"
  | conflict _ => "CONFLICT"
  | matcherNotFound _ => "MATCHER_NOT_FOUND"
  | phraseNotFound _ => "TRANSLATION_NOT_FOUND"
  | render _ => "RENDER_ERROR"
  | invalidOperation _ => "INVALID_OPERATION"
  | invalidArgument _ => "INVALID_ARGUMENT"

def message : Failure → String
  | database => "Database error"
  | io => "IO error"
  | serialization => "Serialization error"
  | faults fs => "Validation failed: " ++ Fault.listShown fs
  | conflict what => "Conflict: " ++ what
  | matcherNotFound id => "Matcher not found: " ++ Text.decimalInt id
  | phraseNotFound id => "Translation data not found: " ++ Text.decimalInt id
  | render why => "Graph render failed: " ++ why
  | invalidOperation why => "Invalid operation: " ++ why
  | invalidArgument why => why

/-- The faults of a form, one by one. -/
def details? : Failure → Option Json
  | faults fs => some (.array (fs.map Fault.toJson))
  | _ => none

/-- The line that tells a user of the command line. -/
def shown (f : Failure) : String :=
  "[" ++ f.code ++ "] " ++ f.message ++
    match f.details? with
    | some details => " (" ++ details.compact ++ ")"
    | none => ""

/-- A form without faults is no failure. -/
def ofFaults : List Fault → Except Failure Unit
  | [] => .ok ()
  | f :: more => .error (.faults (f :: more))

end Failure

end Phrasebook
