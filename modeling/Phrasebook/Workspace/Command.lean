import Phrasebook.Import
import Phrasebook.Row
import Phrasebook.Workspace.Editing
import Phrasebook.Workspace.Listing

/-!
The commands of a workspace and what each of them answers.
-/

namespace Phrasebook

inductive Command where
  | createMatcher (draft : Draft) (actor : String)
  | updateMatcher (id : Int) (draft : Draft) (actor : String)
  | deleteMatcher (id : Int) (actor : String)
  | getMatcher (id : Int)
  | listMatchers (category search : Option String)
  | categories
  | rename (old new actor : String) (dryRun : Bool)
  | addPhrase (source content actor : String)
  | deletePhrase (id : Int) (actor : String)
  | listPhrases (shown : PhraseFilter)
  | sources
  | preview (language source : String) (text : Option String) (limit : Option Nat)
  | importPacks (folder : Option String)
  | exportPack (keep : Bool)
  | builds
  | activity
  | recent (limit : Nat)

namespace Command

/-- Imports a folder, or the one that the settings name. -/
def importFrom (u : Setup) (folder : Option String) : Workspace.Op Import.Report := fun w =>
  Workspace.onStore
    (Import.run Import.limits w.files u.cwd (folder.getD u.settings.packsDir)) w

/-- Carries out a command at a time in milliseconds since 1970. -/
def run (u : Setup) (now : Int) : Command → Workspace.Op Json
  | createMatcher draft actor => return (← Workspace.createMatcher u draft actor now).toJson
  | updateMatcher id draft actor => return (← Workspace.updateMatcher u id draft actor now).toJson
  | deleteMatcher id actor => return (← Workspace.deleteMatcher u id actor now).toJson
  | getMatcher id => return (← Workspace.askStore (·.getMatcher id)).toJson
  | listMatchers category search =>
    return .array ((← Workspace.askStore (Workspace.listMatchers category search)).map Matcher.row)
  | categories => return .ofStrings (← Workspace.askStore fun s => .ok s.categories)
  | rename old new actor dryRun =>
    return (← Workspace.renameCategory u old new actor dryRun now).toJson
  | addPhrase source content actor =>
    return (← Workspace.addPhrase u source content actor now).toJson
  | deletePhrase id actor => return (← Workspace.deletePhrase u id actor now).toJson
  | listPhrases shown =>
    return (← Workspace.askStore fun s => .ok (Workspace.listPhrases shown s)).toJson Phrase.row
  | sources => return .ofStrings (← Workspace.askStore fun s => .ok s.sources)
  | preview language source text limit =>
    return (← Workspace.askStore (Workspace.preview u language source text limit now)).toJson
  | importPacks folder => return (← importFrom u folder).toJson
  | exportPack keep => return (← Workspace.exportPack u keep now).toJson
  | builds => return .array ((← Workspace.builds u).map Build.Entry.toJson)
  | activity =>
    return .array ((← Workspace.askStore (·.activity)).map Store.Activity.toJson)
  | recent limit =>
    return .array ((← Workspace.askStore (·.recent limit)).map Audit.Entry.toJson)

end Command

end Phrasebook
