import Phrasebook.Character.CaseFold
import Phrasebook.Character.Ranges

/-!
Sets of characters as a pattern describes them: ranges, and the operations on sets.
-/

namespace Phrasebook.Regex

inductive CharSet where
  | ranges (rs : Character.Ranges)
  | union (a b : CharSet)
  | inter (a b : CharSet)
  | minus (a b : CharSet)
  | either (a b : CharSet)
  | complement (a : CharSet)
  /-- The set together with all characters that differ from a member in case only. -/
  | folded (a : CharSet)
  deriving Inhabited

namespace CharSet

def has : CharSet → Nat → Bool
  | ranges rs, n => Character.Ranges.has rs n
  | union a b, n => a.has n || b.has n
  | inter a b, n => a.has n && b.has n
  | minus a b, n => a.has n && !b.has n
  | either a b, n => a.has n != b.has n
  | complement a, n => !a.has n
  | folded a, n => (Character.caseVariants n).any a.has

def empty : CharSet := ranges []

def single (c : Char) : CharSet := ranges [(c.toNat, c.toNat)]

def between (a b : Char) : CharSet := ranges [(a.toNat, b.toNat)]

def ascii : CharSet := ranges [(0, 0x7F)]

def unions : List CharSet → CharSet
  | [] => empty
  | [a] => a
  | a :: more => union a (unions more)

/-- Folds when case is to be ignored. -/
def foldIf (ignoreCase : Bool) (a : CharSet) : CharSet := if ignoreCase then folded a else a

def complementIf (negated : Bool) (a : CharSet) : CharSet := if negated then complement a else a

/-- How many ranges a set is made of. -/
def size : CharSet → Nat
  | ranges rs => rs.length
  | union a b | inter a b | minus a b | either a b => a.size + b.size
  | complement a => a.size + 1
  | folded a => 2 * a.size

/-- Every member is an ASCII character, as far as the form of the set shows. -/
def isAscii : CharSet → Bool
  | ranges rs => rs.all fun r => r.2 < 0x80
  | union a b | either a b => a.isAscii && b.isAscii
  | inter a b => a.isAscii || b.isAscii
  | minus a _ => a.isAscii
  | complement _ => false
  | folded a => a.isAscii

end CharSet

end Phrasebook.Regex
