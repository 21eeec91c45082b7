import Phrasebook.Calendar.Format
import Phrasebook.Matcher.Basic
import Phrasebook.Phrase
import Phrasebook.Text.Blank
import Phrasebook.Text.Percent

/-!
Rows of the lists that are shown to a user, and the full form of a stored matcher.
-/

namespace Phrasebook

def previewLength : Nat := 40

/-- The beginning of a memo on one line; a dash when the memo is blank. -/
def memoPreview (memo : String) : String :=
  let t := Text.trim memo
  if t.isEmpty then "–"
  else
    let onOneLine := t.toList.flatMap fun c => if c = '\n' then [' ', '⏎', ' '] else [c]
    String.ofList (onOneLine.take previewLength)

/-- Every group with its position. -/
def groupCells (groups : List Group) : List String :=
  groups.zipIdx.map fun (g, i) => Text.decimal (i + 1) ++ ":" ++ g.cellText

def Matcher.Spec.kind : Matcher.Spec → String
  | .raw _ => "RAW"
  | .regex .. => "REGEX"

def Matcher.row (m : Matcher) : Json :=
  .object [("id", .ofInt m.id), ("kind", .string m.spec.kind), ("category", .string m.category),
    ("pattern", .string m.label),
    ("translations", .array (m.replacements.entries.map fun (l, t) => .ofStrings [l, t])),
    ("groups", .ofStrings (groupCells m.groups)), ("memo", .string (memoPreview m.memo)),
    ("priority", .ofInt m.priority)]

def Matcher.toJson (m : Matcher) : Json :=
  .object [("id", .ofInt m.id), ("category", .string m.category), ("spec", m.spec.toJson),
    ("replaceValue", m.replacements.toJson), ("groups", Group.listToJson m.groups),
    ("priority", .ofInt m.priority), ("ignorePartTranslated", .bool m.ignorePart),
    ("memo", .string m.memo), ("createdAt", .string (Calendar.isoMillis "Z" m.createdAt))]

/-- The query of the form that makes a matcher for a phrase. -/
def Phrase.matcherQuery (p : Phrase) : String :=
  Text.formQuery [("category", p.source), ("raw", p.content), ("type", "raw")]

def Phrase.row (p : Phrase) : Json :=
  .object [("id", .ofInt p.id), ("source", .string p.source), ("content", .string p.content),
    ("toMatcherQuery", .string p.matcherQuery)]

end Phrasebook
