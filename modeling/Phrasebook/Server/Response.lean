import Phrasebook.Text.Numeral
import Phrasebook.Text.Search
import Phrasebook.Text.Utf8

/-!
Answers of the build server and their form on the wire: a status line, the headers, the length of
the body, an empty line, and the body.
-/

namespace Phrasebook.Server

structure Response where
  status : Nat
  headers : List (String × String)
  body : List UInt8
  deriving DecidableEq

namespace Response

def reason : Nat → String
  | 200 => "OK"
  | 304 => "Not Modified"
  | 400 => "Bad Request"
  | 404 => "Not Found"
  | 405 => "Method Not Allowed"
  | _ => "Internal Server Error"

/-- An empty answer with the headers that all answers have. -/
def ofStatus (status : Nat) : Response :=
  ⟨status, [("Access-Control-Allow-Origin", "*"), ("Cache-Control", "no-cache")], []⟩

def withHeader (r : Response) (name value : String) : Response :=
  { r with headers := r.headers ++ [(name, value)] }

def withBody (r : Response) (contentType : String) (body : List UInt8) : Response :=
  { r.withHeader "Content-Type" contentType with body }

/-- The first value of a header, whatever the case of its name. -/
def header? (r : Response) (name : String) : Option String :=
  (r.headers.find? fun h => Text.lowerAscii h.1 == Text.lowerAscii name).map (·.2)

def headerLine (h : String × String) : String := h.1 ++ ": " ++ h.2 ++ "\r\n"

def statusLine (status : Nat) : String :=
  "HTTP/1.1 " ++ Text.decimal status ++ " " ++ reason status ++ "\r\n"

/-- Everything in front of the body. -/
def head (r : Response) : String :=
  statusLine r.status ++ String.join (r.headers.map headerLine) ++
    headerLine ("Content-Length", Text.decimal r.body.length) ++
    headerLine ("Connection", "close") ++ "\r\n"

def toBytes (r : Response) (withBody : Bool) : List UInt8 :=
  Text.utf8 r.head ++ if withBody then r.body else []

end Response

/-- A mark that changes with the time, in seconds, and the size of a file. -/
def etag (modified size : Nat) : String := "\"" ++ Text.hex modified ++ "-" ++ Text.hex size ++ "\""

end Phrasebook.Server
