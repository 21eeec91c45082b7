import Phrasebook.Json.Printer
import Phrasebook.Store.Basic
import Phrasebook.Text.Search

/-!
Matchers in the store. No two of them are for the same raw text, or for the same pattern with the
same flags. Every change of a matcher leaves a line in the log.
-/

namespace Phrasebook.Store

/-- Exactly one of raw text and pattern is there. -/
def Row.hasOneSpec (r : Row) : Bool := r.raw.isEmpty != r.pattern.isEmpty

/-- Two rows that are for the same texts. -/
def Row.sameSpec (a b : Row) : Bool :=
  if a.raw.isEmpty then b.raw.isEmpty && a.pattern == b.pattern && a.flags == b.flags
  else a.raw == b.raw

def sameMatcher : Failure := .conflict "Matcher with the same pattern already exists"

def row? (s : Store) (id : Int) : Option Row := s.rows.find? (·.id == id)

def getMatcher (s : Store) (id : Int) : Except Failure Matcher :=
  match s.row? id with
  | some r => r.matcher
  | none => .error (.matcherNotFound id)

/-- The matchers of the rows that satisfy `p`, ascending by id. Damage of another row does no harm. -/
def selectMatchers (s : Store) (p : Row → Bool) : Except Failure (List Matcher) :=
  (s.rows.filter p).mapM Row.matcher

def allMatchers (s : Store) : Except Failure (List Matcher) := s.selectMatchers fun _ => true

def matchersIn (s : Store) (category : String) : Except Failure (List Matcher) :=
  s.selectMatchers (·.category == category)

/-- The groups of the row, as a text, hold the name as it would be written there. -/
def Row.mayMention (r : Row) (name : String) : Bool :=
  Text.occursIn (Json.quoted name) r.groups.toList

/-- The matchers whose groups name a category. -/
def matchersNaming (s : Store) (category : String) : Except Failure (List Matcher) := do
  let candidates ← s.selectMatchers (·.mayMention category)
  return candidates.filter fun m => Group.mention m.groups category

def Row.holds (r : Row) (term : String) : Bool :=
  [r.category, r.raw, r.pattern, r.memo, r.replacements].any (Text.contains · term)

/-- The matchers that hold a term in category, raw text, pattern, memo or replacements. -/
def searchMatchers (s : Store) (term : String) : Except Failure (List Matcher) :=
  s.selectMatchers (·.holds term)

def categories (s : Store) : List String := distinct (s.rows.map (·.category))

def insertRow (c : Matcher.Content) (actor : String) (now : Int) (s : Store) :
    Except Failure (Int × Store) := do
  let row := Row.ofContent (s.lastMatcher + 1) now c
  if !row.hasOneSpec || s.rows.any row.sameSpec then throw sameMatcher
  let s := { s with rows := s.rows ++ [row], lastMatcher := row.id }
  return (row.id, ← s.record actor .addition .matcher row.id c.spec.label now)

/-- Stores a new matcher. -/
def addMatcher (c : Matcher.Content) (actor : String) (now : Int) : Op Matcher := do
  let id ← transaction (insertRow c actor now)
  ask fun s => s.getMatcher id

def replaceRow (id : Int) (c : Matcher.Content) (actor : String) (now : Int) (s : Store) :
    Except Failure (Unit × Store) := do
  let some old := s.row? id | throw (.matcherNotFound id)
  let row := Row.ofContent id old.createdAt c
  let others := s.rows.filter (·.id != id)
  if s.groupsLocked || !row.hasOneSpec || others.any row.sameSpec then throw sameMatcher
  let s := { s with rows := s.rows.map fun (r : Row) => if r.id == id then row else r }
  return ((), ← s.record actor .change .matcher id c.spec.label now)

/-- Stores other content under the id of a matcher. -/
def updateMatcher (id : Int) (c : Matcher.Content) (actor : String) (now : Int) : Op Matcher := do
  transaction (replaceRow id c actor now)
  ask fun s => s.getMatcher id

def removeRow (id : Int) (actor : String) (now : Int) (s : Store) :
    Except Failure (Matcher × Store) := do
  let m ← s.getMatcher id
  let s := { s with rows := s.rows.filter (·.id != id) }
  return (m, ← s.record actor .deletion .matcher id m.label now)

/-- Removes a matcher and returns it as it was. -/
def removeMatcher (id : Int) (actor : String) (now : Int) : Op Matcher :=
  transaction (removeRow id actor now)

end Phrasebook.Store
