import Phrasebook.FileTree.Basic
import Phrasebook.Json.Record
import Phrasebook.Store.Basic

/-!
The file of a store. A store is kept as one JSON document of rows in the order of their fields. A
file that is empty or missing is a new store; a file with anything else in it is none. A log that is
missing is made anew when the store is opened.
-/

namespace Phrasebook.Store

def Row.toJson (r : Row) : Json :=
  .array [.ofInt r.id, .string r.category, .string r.raw, .string r.pattern, .string r.flags,
    .string r.replacements, .string r.groups, .ofInt r.priority, .bool r.ignorePart,
    .string r.memo, .ofInt r.createdAt]

def Row.ofJson? : Json → Option Row
  | .array [id, category, raw, pattern, flags, replacements, groups, priority, ignorePart, memo,
      createdAt] => do
    return {
      id := ← id.int?
      category := ← category.string?
      raw := ← raw.string?
      pattern := ← pattern.string?
      flags := ← flags.string?
      replacements := ← replacements.string?
      groups := ← groups.string?
      priority := ← priority.int?
      ignorePart := ← ignorePart.bool?
      memo := ← memo.string?
      createdAt := ← createdAt.int? }
  | _ => none

def phraseRow (p : Phrase) : Json :=
  .array [.ofInt p.id, .string p.source, .string p.content, .string p.digest]

def phraseOfRow? : Json → Option Phrase
  | .array [id, source, content, digest] => do
    return ⟨← id.int?, ← source.string?, ← content.string?, ← digest.string?⟩
  | _ => none

def entryRow (e : Audit.Entry) : Json :=
  .array [.ofInt e.id, .string e.actor, .ofInt e.action.code, .string e.subject.name,
    .ofInt e.object, .string e.label, .ofInt e.time]

def entryOfRow? : Json → Option Audit.Entry
  | .array [id, actor, action, subject, object, label, time] => do
    return ⟨← id.int?, ← actor.string?, ← (← action.int?) |> Audit.Action.ofCode?,
      ← (← subject.string?) |> Audit.Subject.ofName?, ← object.int?, ← label.string?,
      ← time.int?⟩
  | _ => none

/-- The mark by which the document of a store is known. -/
def format : String := "phrasebook"

def toJson (s : Store) : Json :=
  .object [("format", .string format), ("matchers", .array (s.rows.map Row.toJson)),
    ("lastMatcher", .ofInt s.lastMatcher), ("phrases", .array (s.phrases.map phraseRow)),
    ("lastPhrase", .ofInt s.lastPhrase),
    ("log", .ofOption (fun es => .array (es.map entryRow)) s.log),
    ("groupsLocked", .bool s.groupsLocked)]

def ofJson? (j : Json) : Option Store := do
  let [mark, rows, lastMatcher, phrases, lastPhrase, log, groupsLocked] ← j.record?
    ["format", "matchers", "lastMatcher", "phrases", "lastPhrase", "log", "groupsLocked"] | none
  if (← Json.required? Json.string? mark) ≠ format then none
  return {
    rows := ← Json.required? (Json.list? Row.ofJson?) rows
    lastMatcher := ← Json.required? Json.int? lastMatcher
    phrases := ← Json.required? (Json.list? phraseOfRow?) phrases
    lastPhrase := ← Json.required? Json.int? lastPhrase
    log := ← Json.required? (Json.optional? (Json.list? entryOfRow?)) log
    groupsLocked := ← Json.required? Json.bool? groupsLocked }

/-- The store with an empty log when it has none. -/
def withLog (s : Store) : Store := { s with log := some (s.log.getD []) }

/-- The store in a text. -/
def ofText? (text : String) : Option Store := (Json.parse? text).bind ofJson?

/-- Opens the store in a file, which may be missing. The folder of the file is made. -/
def openFile (t : FileTree) (cwd : Place) (path : String) (now : Int) :
    Except Failure (Store × FileTree) := do
  let some t := t.makeFolders? cwd (FileTree.parentOf path) | throw .io
  match t.nodeAt? cwd path with
  | some .folder => throw .database
  | some (.file content _) =>
    if content.isEmpty then return (empty, t)
    let some s := (Text.ofUtf8? content).bind ofText? | throw .database
    return (s.withLog, t)
  | _ =>
    let some t := t.write? cwd path [] now | throw .database
    return (empty, t)

/-- Writes the store to its file. -/
def saveFile (s : Store) (t : FileTree) (cwd : Place) (path : String) (now : Int) :
    Except Failure FileTree :=
  match t.write? cwd path (Text.utf8 s.toJson.compact) now with
  | some t => .ok t
  | none => .error .database

end Phrasebook.Store
