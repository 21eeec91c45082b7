import Phrasebook.Audit
import Phrasebook.Matcher.Basic
import Phrasebook.Phrase
import Phrasebook.Text.Blank

/-!
Notices about changes. A notice links to the page of the changed thing, says who did what, and
describes the thing as it is stored. Notices are handed to a webhook when one is set.
-/

namespace Phrasebook

structure Notice where
  content : String
  description : String
  timestamp : String
  deriving DecidableEq, Repr

/-- What comes back for a notice: nothing, or an answer with a status. -/
inductive Reply where
  | unreachable
  | status (code : Nat)
  deriving DecidableEq, Repr

/-- An answer with the status of an error is no delivery. -/
def Reply.delivers : Reply → Bool
  | unreachable => false
  | status code => code < 400 || 600 ≤ code

/-- Where notices go to, and the start of their links. -/
structure Notifier where
  webhook : Option String
  base : String

namespace Notifier

/-- A blank address is no webhook. -/
def make (webhook : Option String) (externalUrl : String) : Notifier :=
  ⟨webhook.filter fun url => !(Text.trim url).isEmpty, Text.trimCharRight '/' externalUrl⟩

def enabled (n : Notifier) : Bool := n.webhook.isSome

end Notifier

namespace Notice

def codeBlock (label body : String) : String := label ++ ": ```\n" ++ body ++ "\n```"

def inlineCode (label body : String) : String := label ++ ": `" ++ body ++ "`"

def lineIf (present : Bool) (line : String) : List String := if present then [line] else []

/-- A line for every part of a matcher that is not empty. -/
def describeMatcher (c : Matcher.Content) : String :=
  "\n".intercalate <|
    [inlineCode "category" c.category, codeBlock c.spec.typeName c.spec.label] ++
    ((c.replacements.entries.filter fun (_, t) => !t.isEmpty).map fun (l, t) => codeBlock l t) ++
    lineIf (!c.groups.isEmpty) ("groups: " ++ Group.labels c.groups) ++
    lineIf (!c.memo.isEmpty) (codeBlock "memo" c.memo) ++
    [inlineCode "priority" (Text.decimalInt c.priority)] ++
    lineIf c.ignorePart (codeBlock "ignorePartTranslated" "True")

def describePhrase (p : Phrase) : String :=
  inlineCode "source" p.source ++ "\n" ++ codeBlock "content" p.content

def make (link : String) (action : Audit.Action) (actor description : String) (now : Int) :
    Notice :=
  ⟨link ++ " (" ++ action.verb ++ ", " ++ actor ++ ")", description,
    Calendar.isoMillis "+00:00" now⟩

def ofMatcher (n : Notifier) (m : Matcher) (action : Audit.Action) (actor : String) (now : Int) :
    Notice :=
  make (n.base ++ "/admin/core/matcher/" ++ Text.decimalInt m.id ++ "/change/") action actor
    (describeMatcher m.toContent) now

def ofPhrase (n : Notifier) (p : Phrase) (action : Audit.Action) (actor : String) (now : Int) :
    Notice :=
  make (n.base ++ "/admin/core/translationdata/" ++ Text.decimalInt p.id ++ "/change/") action
    actor (describePhrase p) now

def toJson (n : Notice) : Json :=
  .object [("content", .string n.content),
    ("embeds", .array [.object [("description", .string n.description),
      ("timestamp", .string n.timestamp)]])]

end Notice

end Phrasebook
