import Phrasebook.Regex.CharSet

/-!
Patterns as expressions. Captures are numbered from one, in the order of their opening brackets.
-/

namespace Phrasebook.Regex

/-- Conditions on a position, which take no character. -/
inductive Look where
  | textStart
  | textEnd
  | lineStart (crlf : Bool)
  | lineEnd (crlf : Bool)
  | boundary (unicode : Bool)
  | notBoundary (unicode : Bool)
  | wordStart (unicode : Bool)
  | wordEnd (unicode : Bool)
  | wordStartHalf (unicode : Bool)
  | wordEndHalf (unicode : Bool)
  deriving DecidableEq, Repr

inductive Expr where
  | empty
  | one (set : CharSet)
  | look (l : Look)
  | capture (index : Nat) (e : Expr)
  | cat (a b : Expr)
  | alt (a b : Expr)
  | repeated (e : Expr) (min : Nat) (max : Option Nat) (greedy : Bool)
  deriving Inhabited

namespace Expr

/-- The fewest characters that an expression takes. -/
def minLength : Expr → Nat
  | empty | look _ => 0
  | one _ => 1
  | capture _ e => e.minLength
  | cat a b => a.minLength + b.minLength
  | alt a b => Nat.min a.minLength b.minLength
  | repeated e min _ _ => e.minLength * min

/-- The expression never takes a character. -/
def isWidthless : Expr → Bool
  | empty | look _ => true
  | one _ => false
  | capture _ e => e.isWidthless
  | cat a b | alt a b => a.isWidthless && b.isWidthless
  | repeated e _ max _ => e.isWidthless || max == some 0

/-- A repetition. What takes no character is taken once at most; what is taken zero times is left
out, with the captures in it. -/
def repeat_ (e : Expr) (min : Nat) (max : Option Nat) (greedy : Bool) : Expr :=
  let (min, max) := if e.isWidthless then (Nat.min min 1, some (Nat.min (max.getD 1) 1)) else (min, max)
  if max = some 0 then empty
  else if min = 1 ∧ max = some 1 then e
  else repeated e min max greedy

def concat : List Expr → Expr
  | [] => empty
  | [e] => e
  | e :: more => cat e (concat more)

def alternatives : List Expr → Expr
  | [] => empty
  | [e] => e
  | e :: more => alt e (alternatives more)

/-- The highest number of a capture in an expression; zero when there is none. -/
def captureCount : Expr → Nat
  | empty | one _ | look _ => 0
  | capture index e => Nat.max index e.captureCount
  | cat a b | alt a b => Nat.max a.captureCount b.captureCount
  | repeated e _ _ _ => e.captureCount

/-- The numbers of the captures in an expression. -/
def captureIndexes : Expr → List Nat
  | empty | one _ | look _ => []
  | capture index e => index :: e.captureIndexes
  | cat a b | alt a b => a.captureIndexes ++ b.captureIndexes
  | repeated e _ _ _ => e.captureIndexes

/-- Roughly the bytes that a set takes when compiled to steps over UTF-8: one step when it is within
ASCII, else a tree of steps that grows with its ranges. -/
def setWeight (set : CharSet) : Nat :=
  if set.isAscii then 24 + 8 * set.size else 400 + 62 * (set.size - 1)

/-- Roughly the bytes of the compiled expression. -/
def weight : Expr → Nat
  | empty => 24
  | one set => setWeight set
  | look _ => 24
  | capture _ e => e.weight + 48
  | cat a b => a.weight + b.weight
  | alt a b => a.weight + b.weight + 48
  | repeated e min max _ => e.weight * Nat.max (Nat.max min (max.getD 0)) 1 + 24 * (max.getD 0 - min) + 48

/-- The most that a compiled expression may take. -/
def weightLimit : Nat := 10 * 1024 * 1024

end Expr

end Phrasebook.Regex
