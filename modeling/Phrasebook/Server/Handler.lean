import Phrasebook.Build.Listing
import Phrasebook.Calendar.HttpDate
import Phrasebook.FileTree.Confined
import Phrasebook.Json.Printer
import Phrasebook.Server.Request
import Phrasebook.Server.Response

/-!
The build server. It answers requests for the files of a folder, whose paths begin with a prefix, and
lists the builds at the prefix itself. An answer is left empty when the client has the file already.
-/

namespace Phrasebook.Server

/-- What is served: the folder `root` under the paths that begin with `base`. -/
structure Site where
  root : String
  base : String
  graphExt : String
  deriving DecidableEq, Repr

/-- A prefix begins and ends with a slash. -/
def normalBase (base : String) : String :=
  let t := Text.trimChar '/' base
  if t.isEmpty then "/" else "/" ++ t ++ "/"

namespace Site

def make (root base graphExt : String) : Site := ⟨root, normalBase base, graphExt⟩

def contentType (name : String) : String :=
  match FileTree.extension? name with
  | some "json" => "application/json; charset=utf-8"
  | some "svg" => "image/svg+xml"
  | some "dot" => "text/vnd.graphviz; charset=utf-8"
  | some "html" => "text/html; charset=utf-8"
  | _ => "application/octet-stream"

/-- A path without query and fragment. -/
def barePath (path : String) : String :=
  String.ofList (path.toList.takeWhile fun c => c != '?' && c != '#')

def listing (s : Site) (t : FileTree) (cwd : Place) : Response :=
  match Build.list t cwd s.root s.base s.graphExt with
  | .ok entries =>
    (Response.ofStatus 200).withBody "application/json; charset=utf-8"
      (Text.utf8 (Json.array (entries.map Build.Entry.toJson)).pretty)
  | .error _ => .ofStatus 500

/-- Files from before 1970 count as being from its beginning. -/
def modifiedSeconds (modified : Int) : Nat := modified.toNat

/-- The client has the file, by its mark or, when it sends none, by its date. -/
def isCurrent (r : Request) (tag : String) (seconds : Nat) : Bool :=
  match r.header? "if-none-match" with
  | some tags =>
    (Text.splitAll ',' tags).any fun t => Text.trim t == tag || Text.trim t == "*"
  | none =>
    match (r.header? "if-modified-since").bind Calendar.parseHttpDate? with
    | some since => decide ((seconds : Int) ≤ since)
    | none => false

def serveFile (r : Request) (name : String) (content : List UInt8) (modified : Int) : Response :=
  let seconds := modifiedSeconds modified
  let tag := etag seconds content.length
  let base (status : Nat) : Response :=
    ((Response.ofStatus status).withHeader "ETag" tag).withHeader "Last-Modified"
      (Calendar.httpDate seconds)
  if isCurrent r tag seconds then base 304 else (base 200).withBody (contentType name) content

/-- The answer to a path behind the prefix. -/
def answerPath (s : Site) (t : FileTree) (cwd : Place) (r : Request) (rest : String) : Response :=
  match Text.percentDecode? rest with
  | none => .ofStatus 400
  | some relative =>
    match t.confined cwd s.root relative with
    | .error _ => .ofStatus 404
    | .ok p =>
      match t.node? p with
      | some (.file content modified) => serveFile r (p.getLast?.getD "") content modified
      | _ => .ofStatus 404

def handle (s : Site) (t : FileTree) (cwd : Place) (r : Request) : Response :=
  if r.method ≠ "GET" ∧ r.method ≠ "HEAD" then
    (Response.ofStatus 405).withHeader "Allow" "GET, HEAD"
  else
    let path := barePath r.path
    let short := Text.trimCharRight '/' s.base
    if path = s.base ∨ (short ≠ "" ∧ path = short) then s.listing t cwd
    else
      match Text.dropFront? s.base.toList path.toList with
      | some rest => s.answerPath t cwd r (String.ofList rest)
      | none => .ofStatus 404

/-- What is sent back for the bytes of a request. -/
def converse (s : Site) (t : FileTree) (cwd : Place) (bytes : List UInt8) : List UInt8 :=
  match Request.read bytes with
  | .broken => []
  | .malformed => (Response.ofStatus 400).toBytes true
  | .request r => (s.handle t cwd r).toBytes (r.method ≠ "HEAD")

end Site

end Phrasebook.Server
