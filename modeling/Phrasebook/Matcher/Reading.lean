import Phrasebook.Json.Record
import Phrasebook.Matcher.Draft

/-!
Reads drafts and specs from JSON.
-/

namespace Phrasebook

def Draft.names : List String :=
  ["category", "raw", "regexpSource", "regexpFlag", "replaceValue", "groups", "priority",
    "ignorePartTranslated", "memo"]

/-- A draft from a record all of whose values may be absent. The record itself is one level of
nesting. -/
def Draft.ofJson? (j : Json) : Option Draft := do
  let [category, raw, pattern, flags, replacements, groups, priority, ignorePart, memo] ←
    j.record? Draft.names | none
  return {
    category := ← Json.orElse? "" Json.string? category
    raw := ← Json.orElse? "" Json.string? raw
    pattern := ← Json.orElse? "" Json.string? pattern
    flags := ← Json.orElse? "" Json.string? flags
    replacements := ← Json.orElse? .empty Replacements.ofJson? replacements
    groups := ← Json.orElse? [] (Group.listOfJson? (Json.maxDepth - 1)) groups
    priority := ← Json.orElse? 0 Json.int? priority
    ignorePart := ← Json.orElse? false Json.bool? ignorePart
    memo := ← Json.orElse? "" Json.string? memo }

/-- The values of a spec of the type that `tag` names. -/
def Matcher.Spec.ofTagged? (tag : String) (j : Json) : Option Matcher.Spec :=
  match tag with
  | "raw" => do
    let [text] ← j.record? ["text"] | none
    return .raw (← Json.required? Json.string? text)
  | "regex" => do
    let [pattern, flags] ← j.record? ["pattern", "flags"] | none
    return .regex (← Json.required? Json.string? pattern) (← Json.required? Json.string? flags)
  | _ => none

/-- A spec names its type among its other values, or in front of them in a list. -/
def Matcher.Spec.ofJson? : Json → Option Matcher.Spec
  | .object fields => do
    let some tag ← Json.lone? "type" fields | none
    ofTagged? (← tag.string?) (.object (fields.filter (·.1 != "type")))
  | .array (tag :: values) => do ofTagged? (← tag.string?) (.array values)
  | _ => none

end Phrasebook
