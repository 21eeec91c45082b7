import Phrasebook.Text.Blank
import Phrasebook.Text.Percent
import Phrasebook.Text.Search

/-!
Settings, taken from named variables. A variable that is unset or blank leaves the default.
-/

namespace Phrasebook

structure Settings where
  databasePath : String := "translation.db"
  buildRoot : String := "build"
  buildUrl : String := "/build/"
  externalUrl : String := "http://localhost:8000"
  webhookUrl : Option String := none
  packsDir : String := "packs"
  graphvizDot : String := "dot"
  bindAddr : String := "127.0.0.1:8000"
  deriving DecidableEq, Repr, Inhabited

namespace Settings

/-- The variables that carry settings, and the one that sets how much is logged. -/
def variableNames : List String :=
  ["DATABASE_PATH", "BUILD_ROOT", "BUILD_URL", "EXTERNAL_URL", "WEBHOOK_URL", "PACKS_DIR",
    "GRAPHVIZ_DOT", "BIND_ADDR", "RUST_LOG"]

def ofLookup (lookup : String → Option String) : Settings :=
  let get (name : String) : Option String := (lookup name).bind Text.nonBlank?
  let d : Settings := {}
  { databasePath := (get "DATABASE_PATH").getD d.databasePath
    buildRoot := (get "BUILD_ROOT").getD d.buildRoot
    buildUrl := (get "BUILD_URL").getD d.buildUrl
    externalUrl := (get "EXTERNAL_URL").getD d.externalUrl
    webhookUrl := get "WEBHOOK_URL"
    packsDir := (get "PACKS_DIR").getD d.packsDir
    graphvizDot := (get "GRAPHVIZ_DOT").getD d.graphvizDot
    bindAddr := (get "BIND_ADDR").getD d.bindAddr }

/-- Graphs are left as the text from which they would be drawn. -/
def keepsGraphText (s : Settings) : Bool := Text.lowerAscii s.graphvizDot == "none"

/-- The kind of file that holds the graph. -/
def graphExtension (s : Settings) : String := if s.keepsGraphText then "dot" else "svg"

/-- The page that lists the matchers of a category. -/
def categoryLink (s : Settings) (category : String) : String :=
  Text.trimCharRight '/' s.externalUrl ++ "/admin/core/matcher/?" ++
    Text.formQuery [("category", category)]

end Settings

end Phrasebook
