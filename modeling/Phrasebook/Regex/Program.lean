import Phrasebook.Regex.Expr

/-!
Programs for the search machine. An instruction tests a character or a position, notes a position,
or offers two ways to go on, the first of which is preferred.
-/

namespace Phrasebook.Regex

inductive Inst where
  | fits
  | char (set : CharSet) (next : Nat)
  | look (l : Look) (next : Nat)
  | save (slot : Nat) (next : Nat)
  | split (first second : Nat)
  deriving Inhabited

abbrev Program := Array Inst

namespace Program

/-- Adds an instruction and tells its address. -/
def put (p : Program) (i : Inst) : Program × Nat := (p.push i, p.size)

/-- Two ways to go on: into `body` or on to `next`; a greedy choice prefers the body. -/
def choice (greedy : Bool) (body next : Nat) : Inst :=
  if greedy then .split body next else .split next body

/-- Code placed in front of `next` a number of times. -/
def copies (code : Program → Nat → Program × Nat) : Nat → Program → Nat → Program × Nat
  | 0, p, next => (p, next)
  | n + 1, p, next =>
    let (p, start) := code p next
    copies code n p start

/-- Up to a number of runs of `code`, each of which may be the last; all leave for `exit`. -/
def options (code : Program → Nat → Program × Nat) (greedy : Bool) (exit : Nat) :
    Nat → Program → Nat → Program × Nat
  | 0, p, next => (p, next)
  | n + 1, p, next =>
    let (p, body) := code p next
    let (p, start) := p.put (choice greedy body exit)
    options code greedy exit n p start

/-- `code` any number of times but at least once. -/
def plus (code : Program → Nat → Program × Nat) (greedy : Bool) (p : Program) (next : Nat) :
    Program × Nat :=
  let (p, again) := p.put .fits
  let (p, body) := code p again
  (p.set! again (choice greedy body next), body)

/-- `code` any number of times. Where it may take nothing, the choice to leave it out is made once
and before the first run, so that an empty run keeps its place in the order of preference. -/
def star (code : Program → Nat → Program × Nat) (nullable greedy : Bool) (p : Program)
    (next : Nat) : Program × Nat :=
  if nullable then
    let (p, body) := plus code greedy p next
    p.put (choice greedy body next)
  else
    let (p, again) := p.put .fits
    let (p, body) := code p again
    (p.set! again (choice greedy body next), again)

/-- Places the code of an expression in front of `next`; the result tells where it starts. -/
def emit : Expr → Program → Nat → Program × Nat
  | .empty, p, next => (p, next)
  | .one set, p, next => p.put (.char set next)
  | .look l, p, next => p.put (.look l next)
  | .capture index e, p, next =>
    let (p, stop) := p.put (.save (2 * index + 1) next)
    let (p, body) := emit e p stop
    p.put (.save (2 * index) body)
  | .cat a b, p, next =>
    let (p, second) := emit b p next
    emit a p second
  | .alt a b, p, next =>
    let (p, first) := emit a p next
    let (p, second) := emit b p next
    p.put (.split first second)
  | .repeated e min none greedy, p, next =>
    match min with
    | 0 => star (emit e) (e.minLength = 0) greedy p next
    | min + 1 =>
      let (p, start) := plus (emit e) greedy p next
      copies (emit e) min p start
  | .repeated e min (some max) greedy, p, next =>
    let (p, start) := options (emit e) greedy next (max - min) p next
    copies (emit e) min p start

/-- The program of an expression, which ends in a fit, and its start. -/
def ofExpr (e : Expr) : Program × Nat :=
  let (p, last) := Program.put #[] .fits
  emit e p last

end Program

end Phrasebook.Regex
