import Phrasebook.Calendar.Format
import Phrasebook.Json.Printer
import Phrasebook.Json.Reader
import Phrasebook.Json.Record
import Phrasebook.Matcher.Basic

/-!
Packs. A pack is the document that a client looks texts up in: the matchers as it needs them, the
time at which the pack was made and some lines to show. Empty and false values are left out of an
entry, and a pattern without flags is written as a plain text.
-/

namespace Phrasebook

/-- A pattern in an entry, with or without flags beside it. -/
inductive Pack.Pattern where
  | bare (pattern : String)
  | flagged (pattern flags : String)
  deriving DecidableEq, Repr

structure Pack.Entry where
  category : String
  replacements : Replacements
  raw : Option String
  regex : Option Pack.Pattern
  groups : List Group
  ignorePart : Bool
  priority : Int
  id : Int

structure Pack where
  matchers : List Pack.Entry
  time : String
  messages : List String

namespace Pack

def Pattern.source : Pattern → String
  | bare p => p
  | flagged p _ => p

def Pattern.flags : Pattern → String
  | bare _ => ""
  | flagged _ f => f

def Pattern.ofRegex (pattern flags : String) : Pattern :=
  if flags.isEmpty then bare pattern else flagged pattern flags

def Entry.ofMatcher (m : Matcher) : Entry :=
  { category := m.category
    replacements := m.replacements
    raw :=
      match m.spec with
      | .raw text => some text
      | .regex .. => none
    regex :=
      match m.spec with
      | .raw _ => none
      | .regex pattern flags => some (.ofRegex pattern flags)
    groups := m.groups
    ignorePart := m.ignorePart
    priority := m.priority
    id := m.id }

def Pattern.toJson : Pattern → Json
  | bare p => .string p
  | flagged p f => .object [("pattern", .string p), ("flags", .string f)]

/-- A text, or an object that has pattern and flags among its fields. All its fields are read, so
they must be sound, the ones that do not count as well. -/
def Pattern.ofJson? (depth : Nat) (j : Json) : Option Pattern :=
  match j with
  | .string p => some (bare p)
  | .object fields => do
    if !j.isSound depth then none
    let [pattern, flags] ← Json.named? ["pattern", "flags"] fields | none
    return flagged (← Json.required? Json.string? pattern) (← Json.required? Json.string? flags)
  | _ => none

/-- A field that is written only when it holds something. -/
def field? (present : Bool) (name : String) (j : Json) : List (String × Json) :=
  if present then [(name, j)] else []

def Entry.toJson (e : Entry) : Json :=
  .object <|
    [("category", .string e.category), ("replaceValue", e.replacements.toJson)] ++
    (e.raw.map fun t => ("raw", Json.string t)).toList ++
    (e.regex.map fun p => ("regex", p.toJson)).toList ++
    field? (!e.groups.isEmpty) "groups" (Group.listToJson e.groups) ++
    field? e.ignorePart "ignorePartTranslated" (.bool true) ++
    [("priority", .ofInt e.priority), ("id", .ofInt e.id)]

def Entry.names : List String :=
  ["category", "replaceValue", "raw", "regex", "groups", "ignorePartTranslated", "priority", "id"]

/-- An entry of which the values may nest up to `depth` levels. -/
def Entry.ofJson? (depth : Nat) (j : Json) : Option Entry := do
  let [category, replacements, raw, regex, groups, ignorePart, priority, id] ←
    j.record? Entry.names | none
  return {
    category := ← Json.required? Json.string? category
    replacements := ← Json.required? Replacements.ofJson? replacements
    raw := ← Json.orElse? none (Json.optional? Json.string?) raw
    regex := ← Json.orElse? none (Json.optional? (Pattern.ofJson? depth)) regex
    groups := ← Json.orElse? [] (Group.listOfJson? depth) groups
    ignorePart := ← Json.orElse? false Json.bool? ignorePart
    priority := ← Json.orElse? 0 Json.int? priority
    id := ← Json.required? Json.int? id }

def toJson (p : Pack) : Json :=
  .object [("matchers", .array (p.matchers.map Entry.toJson)), ("time", .string p.time),
    ("messages", .ofStrings p.messages)]

/-- A pack, of which the record, the list of entries and an entry are three levels. -/
def ofJson? (j : Json) : Option Pack := do
  let [matchers, time, messages] ← j.record? ["matchers", "time", "messages"] | none
  return {
    matchers := ← Json.required? (Json.list? (Entry.ofJson? (Json.maxDepth - 3))) matchers
    time := ← Json.required? Json.string? time
    messages := ← Json.required? (Json.list? Json.string?) messages }

/-- The text of a pack as it is published. -/
def text (p : Pack) : String := p.toJson.pretty

def ofText? (s : String) : Option Pack := (Json.parse? s).bind ofJson?

/-- Who contributed how much, as in: ann (x4), bob (x3). -/
def contributorSummary (counts : List (String × Nat)) : String :=
  ", ".intercalate (counts.map fun (actor, n) => actor ++ " (x" ++ Text.decimal n ++ ")")

/-- The pack of the given matchers at a time in milliseconds since 1970, with one line to show. -/
def make (matchers : List Matcher) (message : String) (now : Int) : Pack :=
  ⟨matchers.map Entry.ofMatcher, Calendar.isoSeconds now, [message]⟩

end Pack

end Phrasebook
