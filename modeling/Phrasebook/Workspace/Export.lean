import Phrasebook.Graph.Dot
import Phrasebook.Store.Activity
import Phrasebook.Store.Matchers
import Phrasebook.Workspace.Basic

/-!
Exports. The pack of all matchers is published together with the graph of their categories. After
every change of a matcher the build is renewed; that this may fail does not undo the change.
-/

namespace Phrasebook

/-- What an export tells about the build that it wrote. -/
structure ExportReport where
  matchers : Nat
  categories : Nat
  cyclicEdges : List Graph.Edge
  written : Build.Written
  deriving DecidableEq, Repr

def Graph.Edge.shown (e : Graph.Edge) : String := e.source ++ " -> " ++ e.target

def ExportReport.toJson (r : ExportReport) : Json :=
  .object [("matchers", .ofNat r.matchers), ("categories", .ofNat r.categories),
    ("cyclicEdges", .ofStrings (r.cyclicEdges.map Graph.Edge.shown)), ("written", r.written.toJson)]

/-- The pack of all matchers. Its message names the contributors, or nobody when the log cannot be
read. -/
def Store.pack (s : Store) (now : Int) : Except Failure Pack := do
  let matchers ← s.allMatchers
  let summary :=
    match s.contributors .matcher with
    | .ok counts => Pack.contributorSummary counts
    | .error _ => ""
  return .make matchers summary now

namespace Workspace

/-- Writes the build; with `keep` a copy stays. -/
def exportPack (u : Setup) (keep : Bool) (now : Int) : Op ExportReport := do
  let pack ← askStore (·.pack now)
  let graph := Graph.ofEntries pack.matchers
  let written ← onFiles <|
    Build.write u.renderer u.cwd u.settings.buildRoot pack (graph.text u.settings.categoryLink) keep
      now
  return ⟨pack.matchers.length, graph.nodes.length, graph.cyclicEdges, written⟩

/-- Renews the build after a change. -/
def refresh (u : Setup) (now : Int) : Op Unit := attempt (exportPack u true now)

def builds (u : Setup) : Op (List Build.Entry) := fun w =>
  match Build.list w.files u.cwd u.settings.buildRoot u.settings.buildUrl u.settings.graphExtension
    with
  | .ok es => .ok es w
  | .error e => .error e w

end Workspace

end Phrasebook
