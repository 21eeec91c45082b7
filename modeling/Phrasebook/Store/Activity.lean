import Phrasebook.Store.Basic
import Phrasebook.Text.Search

/-!
Reports on the log: who did how much, and what was done last.
-/

namespace Phrasebook.Store

/-- How many things a user created, changed and deleted. -/
structure Activity where
  actor : String
  created : Nat
  edited : Nat
  deleted : Nat
  deriving DecidableEq, Repr

def Activity.toJson (a : Activity) : Json :=
  .object [("username", .string a.actor), ("created", .ofNat a.created),
    ("edited", .ofNat a.edited), ("deleted", .ofNat a.deleted)]

def entries (s : Store) : Except Failure (List Audit.Entry) :=
  match s.log with
  | some es => .ok es
  | none => .error .database

/-- The users of some entries in the order in which they first appear. -/
def actorsOf (es : List Audit.Entry) : List String := (es.map (·.actor)).eraseDups

/-- How many entries each user has, in the order in which users first appear. -/
def countsOf (es : List Audit.Entry) : List (String × Nat) :=
  (actorsOf es).map fun actor => (actor, es.countP (·.actor == actor))

/-- Who changed things of one kind, and how often: the most frequent first, and of two that are equally
frequent the one who came first. -/
def contributors (s : Store) (subject : Audit.Subject) : Except Failure (List (String × Nat)) := do
  let es := (← s.entries).filter (·.subject == subject)
  return (countsOf es).mergeSort fun a b => b.2 ≤ a.2

def activityOf (es : List Audit.Entry) (actor : String) : Activity :=
  let count (action : Audit.Action) : Nat :=
    es.countP fun e => e.actor == actor && e.action == action
  ⟨actor, count .addition, count .change, count .deletion⟩

/-- The order of names without regard to case; of two names that differ in case only, the order of
their characters. -/
def precedesName (a b : String) : Bool :=
  let (x, y) := (Text.lowerAscii a, Text.lowerAscii b)
  x < y || (x == y && !(b < a))

/-- What every user did, by name. -/
def activity (s : Store) : Except Failure (List Activity) := do
  let es ← s.entries
  return ((actorsOf es).mergeSort precedesName).map (activityOf es)

/-- The last lines of the log, the newest first. -/
def recent (s : Store) (limit : Nat) : Except Failure (List Audit.Entry) := do
  return slice limit 0 (← s.entries).reverse

end Phrasebook.Store
