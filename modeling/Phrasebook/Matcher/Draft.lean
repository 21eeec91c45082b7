import Phrasebook.Failure
import Phrasebook.Matcher.Basic
import Phrasebook.Text.Blank
import Phrasebook.Text.Newline

/-!
Drafts. A draft is a matcher as a form delivers it: text and pattern stand side by side and nothing
is checked yet. Validation finds every fault of a draft, in the order of the form, or gives the
content of a matcher.
-/

namespace Phrasebook

structure Draft where
  category : String
  raw : String
  pattern : String
  flags : String
  replacements : Replacements
  groups : List Group
  priority : Int
  ignorePart : Bool
  memo : String
  deriving Inhabited

namespace Draft

/-- What can be wrong with a draft. -/
inductive Fault where
  | categoryMissing
  | categoryTooLong
  | flagsWithRaw
  | unknownFlag (flag : Char)
  | repeatedFlag (flag : Char)
  | rawOrPattern
  | replacementMissing
  deriving DecidableEq, Repr

/-- The most characters that a category may have. -/
def categoryLimit : Nat := 50

def knownFlags : List Char := ['d', 'g', 'i', 'm', 's', 'u', 'v', 'y']

def Fault.field : Fault → String
  | categoryMissing | categoryTooLong => "category"
  | flagsWithRaw | unknownFlag _ | repeatedFlag _ => "regexp_flag"
  | rawOrPattern => "__all__"
  | replacementMissing => "replace_value"

def Fault.message : Fault → String
  | categoryMissing => "Category 값이 필요합니다."
  | categoryTooLong => "Category 는 " ++ Text.decimal categoryLimit ++ "자 이하여야 합니다."
  | flagsWithRaw => "Raw 매처에는 flag 를 지정할 수 없습니다."
  | unknownFlag flag => "알 수 없는 flag: " ++ String.singleton flag
  | repeatedFlag flag => "중복된 flag: " ++ String.singleton flag
  | rawOrPattern => "Either raw or regexp_source(+flag) must be set, not both."
  | replacementMissing => "하나 이상의 Replace value 가 필요합니다."

def Fault.toFault (f : Draft.Fault) : Phrasebook.Fault := ⟨f.field, f.message⟩

def empty : Draft := ⟨"", "", "", "", .empty, [], 0, false, ""⟩

def categoryFaults (category : String) : List Draft.Fault :=
  if category.isEmpty then [.categoryMissing]
  else if categoryLimit < category.length then [.categoryTooLong]
  else []

/-- One fault for every flag that is unknown or was seen before. -/
def flagFaults (seen : List Char) : List Char → List Draft.Fault
  | [] => []
  | c :: rest =>
    (if !knownFlags.contains c then [.unknownFlag c]
      else if seen.contains c then [.repeatedFlag c]
      else []) ++ flagFaults (c :: seen) rest

/-- The text or pattern that a draft describes, together with what is wrong with it. -/
def specWithFaults (raw pattern flags : String) : Option Matcher.Spec × List Draft.Fault :=
  match raw.isEmpty, pattern.isEmpty with
  | false, true => (some (.raw raw), if flags.isEmpty then [] else [.flagsWithRaw])
  | true, false => (some (.regex pattern flags), flagFaults [] flags.toList)
  | _, _ => (none, [.rawOrPattern])

def replacementFaults (r : Replacements) : List Draft.Fault :=
  if r.isEmpty then [.replacementMissing] else []

/-- Everything that is wrong with a draft: category first, then text or pattern, then replacements. -/
def findFaults (d : Draft) : List Draft.Fault :=
  categoryFaults (Text.trim d.category) ++
    (specWithFaults (Text.unifyNewlines d.raw) (Text.unifyNewlines d.pattern)
      (Text.trim d.flags)).2 ++
    replacementFaults d.replacements

def validate (d : Draft) : Except Failure Matcher.Content :=
  let (spec?, _) :=
    specWithFaults (Text.unifyNewlines d.raw) (Text.unifyNewlines d.pattern) (Text.trim d.flags)
  match findFaults d, spec? with
  | [], some spec =>
    .ok
      { category := Text.trim d.category, spec, replacements := d.replacements
        groups := d.groups, priority := d.priority, ignorePart := d.ignorePart, memo := d.memo }
  | [], none => .error (.invalidOperation "match specification missing")
  | faults, _ => .error (.faults (faults.map Fault.toFault))

/-- The draft that describes a given content. -/
def ofContent (c : Matcher.Content) : Draft :=
  let (raw, pattern, flags) := c.spec.columns
  { category := c.category, raw, pattern, flags, replacements := c.replacements
    groups := c.groups, priority := c.priority, ignorePart := c.ignorePart, memo := c.memo }

end Draft

end Phrasebook
