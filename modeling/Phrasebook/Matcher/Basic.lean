import Phrasebook.Group
import Phrasebook.Replacements

/-!
Matchers. A matcher belongs to a category and says which texts it is for: one text exactly, or those
that fit a pattern. It holds a replacement text for each language it knows, and its groups name the
categories in which captured parts are looked up in turn.
-/

namespace Phrasebook

/-- Which texts a matcher is for. -/
inductive Matcher.Spec where
  | raw (text : String)
  | regex (pattern flags : String)
  deriving DecidableEq, Repr, Inhabited

/-- All that a user decides about a matcher. -/
structure Matcher.Content where
  category : String
  spec : Matcher.Spec
  replacements : Replacements
  groups : List Group
  priority : Int
  ignorePart : Bool
  memo : String
  deriving Inhabited

/-- A stored matcher. The time of its creation is in milliseconds since 1970. -/
structure Matcher extends Matcher.Content where
  id : Int
  createdAt : Int
  deriving Inhabited

namespace Matcher

def Spec.typeName : Spec → String
  | .raw _ => "raw"
  | .regex .. => "regex"

/-- A text as it is, a pattern between slashes and followed by its flags. -/
def Spec.label : Spec → String
  | .raw text => text
  | .regex pattern flags => "/" ++ pattern ++ "/" ++ flags

def label (m : Matcher) : String := m.spec.label

/-- Raw text, pattern and flags side by side; what a spec does not have is empty. -/
def Spec.columns : Spec → String × String × String
  | .raw text => (text, "", "")
  | .regex pattern flags => ("", pattern, flags)

def Spec.toJson : Spec → Json
  | .raw text => .object [("type", .string "raw"), ("text", .string text)]
  | .regex pattern flags =>
    .object [("type", .string "regex"), ("pattern", .string pattern), ("flags", .string flags)]

def Content.toJson (c : Content) : Json :=
  .object [("category", .string c.category), ("spec", c.spec.toJson),
    ("replaceValue", c.replacements.toJson), ("groups", Group.listToJson c.groups),
    ("priority", .ofInt c.priority), ("ignorePartTranslated", .bool c.ignorePart),
    ("memo", .string c.memo)]

end Matcher

end Phrasebook
