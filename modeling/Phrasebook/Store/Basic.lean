import Phrasebook.Audit
import Phrasebook.Failure
import Phrasebook.Json.Reader
import Phrasebook.Matcher.Basic
import Phrasebook.Phrase

/-!
The store: matchers, phrases, and the log of what was done to them. Ids count upwards and are never
given twice. A matcher is stored as a row whose replacements and groups are JSON texts, so a row that
was damaged from outside fails when it is read, and only then.
-/

namespace Phrasebook

/-- A matcher as it is stored. Raw text and pattern stand side by side, and one of them is empty. -/
structure Store.Row where
  id : Int
  category : String
  raw : String
  pattern : String
  flags : String
  replacements : String
  groups : String
  priority : Int
  ignorePart : Bool
  memo : String
  createdAt : Int
  deriving DecidableEq, Repr

/-- Rows, phrases and lines of the log are ascending by id; beside them is the last id that was given.
The log may be missing, and the groups may be locked against every change. -/
structure Store where
  rows : List Store.Row
  lastMatcher : Int
  phrases : List Phrase
  lastPhrase : Int
  log : Option (List Audit.Entry)
  groupsLocked : Bool
  deriving DecidableEq

namespace Store

def empty : Store := ⟨[], 0, [], 0, some [], false⟩

def replacementsText (r : Replacements) : String := r.toJson.compact

def groupsText (groups : List Group) : String := (Group.listToJson groups).compact

def Row.ofContent (id createdAt : Int) (c : Matcher.Content) : Row :=
  let (raw, pattern, flags) := c.spec.columns
  { id, category := c.category, raw, pattern, flags
    replacements := replacementsText c.replacements, groups := groupsText c.groups
    priority := c.priority, ignorePart := c.ignorePart, memo := c.memo, createdAt }

def Row.spec (r : Row) : Matcher.Spec :=
  if r.raw.isEmpty then .regex r.pattern r.flags else .raw r.raw

def readReplacements? (text : String) : Option Replacements :=
  (Json.parse? text).bind Replacements.ofJson?

def readGroups? (text : String) : Option (List Group) :=
  (Json.parse? text).bind (Group.listOfJson? Json.maxDepth)

/-- The matcher that a row stands for. -/
def Row.matcher (r : Row) : Except Failure Matcher :=
  match readReplacements? r.replacements, readGroups? r.groups with
  | some replacements, some groups =>
    .ok
      { id := r.id, category := r.category, spec := r.spec, replacements, groups
        priority := r.priority, ignorePart := r.ignorePart, memo := r.memo
        createdAt := r.createdAt }
  | _, _ => .error .database

/-- An operation on a store. One that fails may have changed the store. -/
abbrev Op := EStateM Failure Store

/-- Looks at the store and leaves it as it is. -/
def ask {α : Type} (f : Store → Except Failure α) : Op α := fun s =>
  match f s with
  | .ok a => .ok a s
  | .error e => .error e s

/-- Changes the store altogether or, on failure, not at all. -/
def transaction {α : Type} (f : Store → Except Failure (α × Store)) : Op α := fun s =>
  match f s with
  | .ok (a, s) => .ok a s
  | .error e => .error e s

/-- The store with one more line in its log. Nothing can be logged while the log is missing. -/
def record (s : Store) (actor : String) (action : Audit.Action) (subject : Audit.Subject)
    (object : Int) (label : String) (now : Int) : Except Failure Store :=
  match s.log with
  | none => .error .database
  | some entries =>
    .ok { s with
      log := some (entries ++ [⟨entries.length + 1, actor, action, subject, object, label, now⟩]) }

/-- At most `limit` of the items behind the first `offset`. Numbers beyond a signed word count as
none. -/
def slice {α : Type} (limit offset : Nat) (items : List α) : List α :=
  let rest := if offset < Text.signedEnd then items.drop offset else items
  if limit < Text.signedEnd then rest.take limit else rest

/-- Distinct names in ascending order. -/
def distinct (names : List String) : List String := names.eraseDups.mergeSort fun a b => !(b < a)

end Store

end Phrasebook
