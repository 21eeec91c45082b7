import Phrasebook.Text.Blank
import Phrasebook.Text.Search
import Phrasebook.Text.Utf8

/-!
Requests and how they are read from the wire: a line with method and path, then headers up to an
empty line. Nothing behind the headers is read.
-/

namespace Phrasebook.Server

/-- A request. The names of its headers are in small letters. -/
structure Request where
  method : String
  path : String
  headers : List (String × String)
  deriving DecidableEq, Repr

namespace Request

def make (method path : String) : Request := ⟨method, path, []⟩

/-- A header in the stead of one with the same name. -/
def withHeader (r : Request) (name value : String) : Request :=
  let name := Text.lowerAscii name
  { r with headers := (name, value) :: r.headers.filter (·.1 != name) }

def header? (r : Request) (name : String) : Option String := r.headers.lookup name

/-- The most lines of headers that are read. -/
def headerLimit : Nat := 100

/-- The bytes up to and with the first line feed as text, and the bytes behind; nothing when they are
not UTF-8. -/
def readLine (bytes : List UInt8) : Option (String × List UInt8) :=
  let line := bytes.takeWhile (· ≠ 10)
  let rest := bytes.drop line.length
  (Text.ofUtf8? (line ++ rest.take 1)).map (·, rest.drop 1)

/-- Reads headers up to an empty line. A line without a colon is passed over. -/
def readHeaders : Nat → Request → List UInt8 → Option Request
  | 0, r, _ => some r
  | left + 1, r, bytes =>
    if bytes.isEmpty then some r
    else
      match readLine bytes with
      | none => none
      | some (line, rest) =>
        let line := String.ofList (Text.trimRight line.toList)
        if line.isEmpty then some r
        else
          match Text.splitOnce? ':' line with
          | some (name, value) => readHeaders left (r.withHeader (Text.trim name) (Text.trim value)) rest
          | none => readHeaders left r rest

/-- What is read from the wire. -/
inductive Reading where
  /-- A line is not UTF-8, so the connection ends without an answer. -/
  | broken
  /-- The first line lacks a method or a path. -/
  | malformed
  | request (r : Request)
  deriving DecidableEq, Repr

def read (bytes : List UInt8) : Reading :=
  match readLine bytes with
  | none => .broken
  | some (line, rest) =>
    match Text.words line with
    | method :: path :: _ =>
      match readHeaders headerLimit (make method path) rest with
      | some r => .request r
      | none => .broken
    | _ => .malformed

end Request

end Phrasebook.Server
