import Phrasebook.Book
import Phrasebook.Store.Phrases
import Phrasebook.Workspace.Export

/-!
Lists for users: matchers and phrases under filters, and phrases as the stored matchers render
them.
-/

namespace Phrasebook

/-- Phrases in another language, and how many of them are covered fully, in part or not at all. -/
structure Preview where
  results : List Rendition

namespace Preview

def count (p : Preview) (coverage : Coverage) : Nat :=
  p.results.countP fun r => decide (r.coverage = coverage)

def toJson (p : Preview) : Json :=
  .object [("results", .array (p.results.map Rendition.toJson)),
    ("translated", .ofNat (p.count .full)), ("partTranslated", .ofNat (p.count .part)),
    ("untranslated", .ofNat (p.count .missing))]

end Preview

/-- Which phrases are listed, and which page of them. -/
structure PhraseFilter where
  source : Option String
  search : Option String
  page : Option Nat
  perPage : Option Nat
  fast : Bool
  deriving DecidableEq, Repr

namespace Workspace

/-- The matchers of a category, those that hold a term, or those that satisfy both. -/
def listMatchers (category search : Option String) (s : Store) : Except Failure (List Matcher) :=
  match category, search with
  | none, none => s.allMatchers
  | some name, none => s.matchersIn name
  | none, some term => s.searchMatchers term
  | some name, some term => do
    let ms ← s.matchersIn name
    let hits ← s.searchMatchers term
    return ms.filter fun m => hits.any (·.id == m.id)

/-- How many phrases a page shows when nothing else is asked for. -/
def phrasesPerPage : Nat := 50

/-- A page of phrases. The hits of a search are a single page, whatever their source. -/
def listPhrases (f : PhraseFilter) (s : Store) : Page Phrase :=
  let request := PageRequest.make (f.page.getD 1) (f.perPage.getD phrasesPerPage) f.fast
  match f.search with
  | some term =>
    let hits := s.searchPhrases term request.perPage
    .exact hits hits.length (.make 1 request.perPage false)
  | none => s.pageOfPhrases f.source request

/-- Renders a text, or the first phrases of a source, in the category of the source. -/
def preview (u : Setup) (language source : String) (text : Option String) (limit : Option Nat)
    (now : Int) (s : Store) : Except Failure Preview := do
  let pack ← s.pack now
  let book := Book.ofEntries u.engine pack.matchers
  let targets :=
    match text with
    | some t => [t]
    | none =>
      let request := PageRequest.make 1 (limit.getD phrasesPerPage) false
      (s.pageOfPhrases (some source) request).items.map Phrase.content
  return ⟨targets.map fun t => book.render t language source⟩

end Workspace

end Phrasebook
