import Phrasebook.Matcher.Draft
import Phrasebook.Store.Phrases
import Phrasebook.Store.Rename
import Phrasebook.Workspace.Export

/-!
Changes that users make. A matcher that is created, updated or deleted renews the build, and a notice
tells of it; a phrase that is added or deleted is told of only; a renaming renews the build in silence.
-/

namespace Phrasebook

/-- What a renaming did, or would do. -/
structure RenameOutcome where
  old : String
  new : String
  report : RenameReport
  applied : Bool
  deriving DecidableEq, Repr

def RenameOutcome.toJson (r : RenameOutcome) : Json :=
  .object [("old", .string r.old), ("new", .string r.new), ("report", r.report.toJson),
    ("applied", .bool r.applied)]

namespace Workspace

def check {α : Type} (result : Except Failure α) : Op α := fun w =>
  match result with
  | .ok a => .ok a w
  | .error e => .error e w

/-- Renews the build after a change of a matcher and sends a notice of it. -/
def announce (u : Setup) (m : Matcher) (action : Audit.Action) (actor : String) (now : Int) :
    Op Unit := do
  refresh u now
  send u fun n => .ofMatcher n m action actor now

def createMatcher (u : Setup) (draft : Draft) (actor : String) (now : Int) : Op Matcher := do
  let content ← check draft.validate
  let m ← onStore (Store.addMatcher content actor now)
  announce u m .addition actor now
  return m

def updateMatcher (u : Setup) (id : Int) (draft : Draft) (actor : String) (now : Int) :
    Op Matcher := do
  let content ← check draft.validate
  let m ← onStore (Store.updateMatcher id content actor now)
  announce u m .change actor now
  return m

def deleteMatcher (u : Setup) (id : Int) (actor : String) (now : Int) : Op Matcher := do
  let m ← onStore (Store.removeMatcher id actor now)
  announce u m .deletion actor now
  return m

def addPhrase (u : Setup) (source content actor : String) (now : Int) : Op Phrase := do
  let p ← onStore (Store.addPhrase source content actor now)
  send u fun n => .ofPhrase n p .addition actor now
  return p

def deletePhrase (u : Setup) (id : Int) (actor : String) (now : Int) : Op Phrase := do
  let p ← onStore (Store.removePhrase id actor now)
  send u fun n => .ofPhrase n p .deletion actor now
  return p

/-- Renames a category, or with `dryRun` only counts what a renaming would concern. Names are
trimmed. -/
def renameCategory (u : Setup) (old new actor : String) (dryRun : Bool) (now : Int) :
    Op RenameOutcome := do
  let old := Text.trim old
  let new := Text.trim new
  if dryRun then
    let report ← askStore (·.previewRename old new)
    return ⟨old, new, report, false⟩
  else
    let report ← onStore (Store.rename old new actor now)
    refresh u now
    return ⟨old, new, report, true⟩

end Workspace

end Phrasebook
