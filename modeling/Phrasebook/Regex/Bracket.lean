import Phrasebook.Regex.Escape

/-!
Bracketed classes. Members, ranges, classes and brackets inside are united; intersection, difference
and symmetric difference bind less tightly and group from the left.
-/

namespace Phrasebook.Regex

inductive SetOp where
  | inter
  | minus
  | either

/-- The members read so far, last first, and the levels they are built of. -/
structure Members where
  sets : List CharSet
  depth : Nat

/-- An open bracket: whether it is negated, the operation that waits for its right side with the
left side done so far, and the members around the bracket. -/
structure Bracket where
  negated : Bool
  waiting : Option (SetOp × CharSet × Nat)
  around : Members

namespace Members

def none : Members := ⟨[], 0⟩

def add (m : Members) (s : CharSet) (depth : Nat := 0) : Members :=
  ⟨s :: m.sets, Nat.max m.depth depth⟩

/-- The union, and its levels: one more than those of its members when there are several. -/
def toSet (m : Members) : CharSet × Nat :=
  match m.sets with
  | [] => (.empty, 0)
  | [s] => (s, m.depth)
  | sets => (.unions sets.reverse, m.depth + 1)

end Members

def SetOp.apply (op : SetOp) (ignoreCase : Bool) (a b : CharSet) : CharSet :=
  let a := a.foldIf ignoreCase
  let b := b.foldIf ignoreCase
  match op with
  | inter => .inter a b
  | minus => .minus a b
  | either => .either a b

/-- The set of a bracket up to here, with a waiting operation carried out. -/
def Bracket.settle (b : Bracket) (flags : Flags) (m : Members) : CharSet × Nat :=
  let (right, depth) := m.toSet
  match b.waiting with
  | .none => (right, depth)
  | some (op, left, leftDepth) =>
    (op.apply flags.ignoreCase left right, Nat.max leftDepth depth + 1)

/-- A bracket just opened: a leading caret negates it, and leading hyphens, or else one closing
bracket, are members. -/
def openBracket (flags : Flags) (around : Members) (cs : List Char) :
    Option (Bracket × Members × List Char) :=
  let cs := skipSpace flags cs
  let (negated, cs) :=
    match cs with
    | '^' :: rest => (true, skipSpace flags rest)
    | cs => (false, cs)
  let rec hyphens : Nat → Members → List Char → Members × List Char
    | fuel + 1, m, '-' :: rest => hyphens fuel (m.add (.single '-')) (skipSpace flags rest)
    | _, m, cs => (m, cs)
  let (m, cs) := hyphens cs.length .none cs
  let (m, cs) :=
    match m.sets, cs with
    | [], ']' :: rest => (m.add (.single ']'), skipSpace flags rest)
    | _, cs => (m, cs)
  if cs.isEmpty then .none else some (⟨negated, .none, around⟩, m, cs)

/-- A class such as [:alpha:], when the text is one; the bracket has been dropped. -/
def readAsciiClass (flags : Flags) : List Char → Option (CharSet × List Char)
  | ':' :: rest =>
    let (negated, rest) :=
      match rest with
      | '^' :: rest => (true, rest)
      | rest => (false, rest)
    let name := rest.takeWhile (· ≠ ':')
    match rest.drop name.length with
    | ':' :: ']' :: behind =>
      (CharSet.asciiClass? (String.ofList name)).map fun s =>
        (.complementIf negated (.foldIf flags.ignoreCase s), behind)
    | _ => .none
  | _ => .none

/-- One member of a bracket: a character, by itself or escaped, or a class. -/
def readMember (flags : Flags) : List Char → Option (Atom × List Char)
  | '\\' :: rest => readEscape flags rest
  | c :: rest => some (.char c, rest)
  | [] => none

/-- A character as a member; outside Unicode it must be within ASCII. -/
def memberChar? (flags : Flags) (c : Char) : Option Char :=
  if flags.unicode ∨ c.toNat < 0x80 then some c else .none

/-- One member or a range of characters. A hyphen in front of a closing bracket or of another hyphen
makes no range. -/
def readRange (flags : Flags) (cs : List Char) : Option (CharSet × List Char) := do
  let (first, rest) ← readMember flags cs
  let rest := skipSpace flags rest
  let isRange :=
    match rest with
    | '-' :: more =>
      match skipSpace flags more with
      | c :: _ => c ≠ ']' && c ≠ '-'
      | [] => true
    | _ => false
  if isRange then
    let (second, rest) ← readMember flags (advance flags rest)
    match first, second with
    | .char a, .char b =>
      if b < a then .none
      else some (.between (← memberChar? flags a) (← memberChar? flags b), rest)
    | _, _ => .none
  else
    match first with
    | .char a => some (.single (← memberChar? flags a), rest)
    | .set s => some (s, rest)
    | _ => .none

/-- Reads members up to the end of the outermost bracket; `open_` holds the brackets that are open,
innermost first. Each round drops a character. -/
def readBrackets (flags : Flags) :
    Nat → List Bracket → Members → List Char → Option (CharSet × Nat × List Char)
  | fuel + 1, b :: outer, m, cs =>
    match skipSpace flags cs with
    | [] => .none
    | '[' :: rest =>
      match readAsciiClass flags rest with
      | some (s, rest) =>
        if !flags.unicode ∧ !s.isAscii then .none
        else readBrackets flags fuel (b :: outer) (m.add s) rest
      | .none =>
        match openBracket flags m rest with
        | some (inner, m, rest) => readBrackets flags fuel (inner :: b :: outer) m rest
        | .none => .none
    | ']' :: rest =>
      let (s, depth) := b.settle flags m
      if b.negated ∧ !flags.unicode then .none
      else
        let s := CharSet.complementIf b.negated (s.foldIf flags.ignoreCase)
        match outer with
        | [] => some (s, depth + 1, rest)
        | outer => readBrackets flags fuel outer (b.around.add s (depth + 1)) rest
    | '&' :: '&' :: rest =>
      let (s, depth) := b.settle flags m
      readBrackets flags fuel (⟨b.negated, some (.inter, s, depth), b.around⟩ :: outer) .none rest
    | '-' :: '-' :: rest =>
      let (s, depth) := b.settle flags m
      readBrackets flags fuel (⟨b.negated, some (.minus, s, depth), b.around⟩ :: outer) .none rest
    | '~' :: '~' :: rest =>
      let (s, depth) := b.settle flags m
      readBrackets flags fuel (⟨b.negated, some (.either, s, depth), b.around⟩ :: outer) .none rest
    | cs =>
      match readRange flags cs with
      | some (s, rest) => readBrackets flags fuel (b :: outer) (m.add s) rest
      | .none => .none
  | _, _, _, _ => .none

/-- The class behind an opening bracket, with its levels. -/
def readClass (flags : Flags) (cs : List Char) : Option (CharSet × Nat × List Char) :=
  match openBracket flags .none cs with
  | some (b, m, rest) => readBrackets flags (rest.length + 1) [b] m rest
  | .none => .none

end Phrasebook.Regex
