import Phrasebook.Character.Alphanumeric
import Phrasebook.Regex.Bracket

/-!
Reads a pattern. Groups are kept on a stack: each holds its finished alternatives and the pieces of
the one being read. Flags set inside a group end with it.
-/

namespace Phrasebook.Regex

/-- A group being read; the whole pattern is the outermost one. -/
structure Frame where
  capture : Option Nat
  /-- The flags to return to when the group ends. -/
  outer : Flags
  branches : List Piece
  pieces : List Piece

/-- The state of reading a pattern: open groups, innermost first. -/
structure Reading where
  frame : Frame
  stack : List Frame
  flags : Flags
  captures : Nat
  names : List (Nat × String)

/-- The most levels that a pattern may be built of. -/
def depthLimit : Nat := 250

def deepest (ps : List Piece) : Nat := ps.foldl (fun d p => Nat.max d p.depth) 0

/-- Pieces in a row; `ps` has the last one first. -/
def Piece.row (ps : List Piece) : Piece :=
  match ps with
  | [] => ⟨.empty, 0, false⟩
  | [p] => p
  | ps => ⟨.concat (ps.reverse.map (·.expr)), deepest ps + 1, false⟩

namespace Frame

/-- The alternatives of a group together. -/
def close (f : Frame) : Piece :=
  let last := Piece.row f.pieces
  match f.branches with
  | [] => last
  | bs =>
    ⟨.alternatives ((last :: bs).reverse.map (·.expr)), deepest (last :: bs) + 1, false⟩

def add (f : Frame) (p : Piece) : Frame := { f with pieces := p :: f.pieces }

end Frame

/-- A character, in whatever case when case is ignored. -/
def charExpr (flags : Flags) (c : Char) : Expr :=
  .one (.foldIf (flags.ignoreCase && (flags.unicode || c.toNat < 0x80)) (.single c))

/-- Any character but the end of a line. -/
def dotExpr? (flags : Flags) : Option Expr :=
  if !flags.unicode then none
  else if flags.dotAll then some (.one (.ranges [(0, 0x10FFFF)]))
  else if flags.crlf then some (.one (.complement (.ranges [(0x0A, 0x0A), (0x0D, 0x0D)])))
  else some (.one (.complement (.ranges [(0x0A, 0x0A)])))

def Atom.expr? (flags : Flags) : Atom → Option Expr
  | .char c => some (charExpr flags c)
  | .set s => some (.one s)
  | .dot => dotExpr? flags
  | .look l => some (.look l)

def lineStartLook (flags : Flags) : Look :=
  if flags.multiLine then .lineStart flags.crlf else .textStart

def lineEndLook (flags : Flags) : Look := if flags.multiLine then .lineEnd flags.crlf else .textEnd

def readAtom (flags : Flags) : List Char → Option (Atom × List Char)
  | '\\' :: rest => readEscape flags rest
  | '.' :: rest => some (.dot, rest)
  | '^' :: rest => some (.look (lineStartLook flags), rest)
  | '$' :: rest => some (.look (lineEndLook flags), rest)
  | c :: rest => some (.char c, rest)
  | [] => none

namespace Reading

def start (flags : Flags) : Reading := ⟨⟨none, flags, [], []⟩, [], flags, 0, []⟩

def add (r : Reading) (p : Piece) : Reading := { r with frame := r.frame.add p }

/-- Begins a group in which `flags` are in force. -/
def openGroup (r : Reading) (capture : Option Nat) (flags : Flags) : Reading :=
  { r with
    frame := ⟨capture, r.flags, [], []⟩
    stack := r.frame :: r.stack
    flags := flags
    captures := capture.getD r.captures }

/-- Ends the innermost group, unless it is the whole pattern. -/
def closeGroup (r : Reading) : Option Reading :=
  match r.stack with
  | [] => none
  | outer :: stack =>
    let inner := r.frame.close
    let expr :=
      match r.frame.capture with
      | some i => Expr.capture i inner.expr
      | none => inner.expr
    some { r with frame := outer.add ⟨expr, inner.depth + 1, false⟩, stack, flags := r.frame.outer }

def nextBranch (r : Reading) : Reading :=
  { r with
    frame := { r.frame with branches := Piece.row r.frame.pieces :: r.frame.branches, pieces := [] } }

/-- Repeats the last piece. A repetition needs a piece that can match. -/
def repeatLast (r : Reading) (min : Nat) (max : Option Nat) (greedy : Bool) : Option Reading :=
  match r.frame.pieces with
  | [] => none
  | p :: pieces =>
    if p.setsFlags then none
    else
      let expr := p.expr.repeat_ min max (greedy != r.flags.swapGreed)
      some { r with frame := { r.frame with pieces := ⟨expr, p.depth + 1, false⟩ :: pieces } }

/-- A question mark behind a repetition makes it take as little as it can. -/
def repeatMark (r : Reading) (min : Nat) (max : Option Nat) (rest : List Char) :
    Option (Reading × List Char) :=
  match rest with
  | '?' :: rest => (r.repeatLast min max false).map (·, rest)
  | rest => (r.repeatLast min max true).map (·, rest)

end Reading

def setFlag (flags : Flags) (c : Char) (value : Bool) : Option Flags :=
  match c with
  | 'i' => some { flags with ignoreCase := value }
  | 'm' => some { flags with multiLine := value }
  | 's' => some { flags with dotAll := value }
  | 'U' => some { flags with swapGreed := value }
  | 'u' => some { flags with unicode := value }
  | 'R' => some { flags with crlf := value }
  | 'x' => some { flags with verbose := value }
  | _ => none

/-- Flag letters up to a colon or a closing bracket. No letter may come twice, and a hyphen, behind
which flags are cleared, must have a letter behind it. -/
def readFlags (flags : Flags) (seen : List Char) : List Char → Option (Flags × Char × List Char)
  | [] => none
  | c :: rest =>
    if c = ':' ∨ c = ')' then
      if seen.head? = some '-' then none else some (flags, c, rest)
    else if seen.contains c then none
    else if c = '-' then readFlags flags (c :: seen) rest
    else
      match setFlag flags c (!seen.contains '-') with
      | some flags => readFlags flags (c :: seen) rest
      | none => none

def isNameStart (c : Char) : Bool := c == '_' || Character.isAlphabetic c

def isNamePart (c : Char) : Bool :=
  c == '_' || c == '.' || c == '[' || c == ']' || Character.isAlphanumeric c

/-- The name of a capture, up to the closing angle bracket. -/
def readName (cs : List Char) : Option (String × List Char) :=
  let name := cs.takeWhile (· ≠ '>')
  match name, cs.drop name.length with
  | c :: more, '>' :: rest =>
    if isNameStart c && more.all isNamePart then some (String.ofList name, rest) else none
  | _, _ => none

/-- A group behind its opening bracket: a capture, with or without a name, a group with flags of its
own, or flags alone. -/
def readGroup (r : Reading) (cs : List Char) : Option (Reading × List Char) :=
  let named (rest : List Char) : Option (Reading × List Char) := do
    let (name, rest) ← readName rest
    if r.names.any (·.2 == name) then none
    else
      let index := r.captures + 1
      some ({ r.openGroup (some index) r.flags with names := r.names ++ [(index, name)] }, rest)
  match skipSpace r.flags cs with
  | '?' :: '=' :: _ => none
  | '?' :: '!' :: _ => none
  | '?' :: '<' :: '=' :: _ => none
  | '?' :: '<' :: '!' :: _ => none
  | '?' :: 'P' :: '<' :: rest => named rest
  | '?' :: '<' :: rest => named rest
  | '?' :: rest =>
    match readFlags r.flags [] rest with
    | some (flags, ':', behind) => some (r.openGroup none flags, behind)
    | some (flags, _, behind) =>
      if rest.head? = some ')' then none
      else some ({ r.add ⟨.empty, 0, true⟩ with flags := flags }, behind)
    | none => none
  | rest => some (r.openGroup (some (r.captures + 1)) r.flags, rest)

/-- A counted repetition behind its opening brace. -/
def readCounted (r : Reading) (cs : List Char) : Option (Reading × List Char) := do
  let (min, rest) ← readCount r.flags (skipSpace r.flags cs)
  match rest with
  | '\x7d' :: rest => r.repeatMark min (some min) (skipSpace r.flags rest)
  | ',' :: rest =>
    match skipSpace r.flags rest with
    | '\x7d' :: rest => r.repeatMark min none (skipSpace r.flags rest)
    | rest =>
      let (max, rest) ← readCount r.flags rest
      match rest with
      | '\x7d' :: rest =>
        if max < min then none else r.repeatMark min (some max) (skipSpace r.flags rest)
      | _ => none
  | _ => none

/-- One step of reading; every step drops a character. -/
def Reading.step (r : Reading) : List Char → Option (Reading × List Char)
  | '(' :: rest => readGroup r rest
  | ')' :: rest => r.closeGroup.map (·, rest)
  | '|' :: rest => some (r.nextBranch, rest)
  | '[' :: rest => (readClass r.flags rest).map fun (s, depth, rest) => (r.add ⟨.one s, depth, false⟩, rest)
  | '?' :: rest => r.repeatMark 0 (some 1) rest
  | '*' :: rest => r.repeatMark 0 none rest
  | '+' :: rest => r.repeatMark 1 none rest
  | '\x7b' :: rest => readCounted r rest
  | cs => do
    let (atom, rest) ← readAtom r.flags cs
    return (r.add ⟨← atom.expr? r.flags, 0, false⟩, rest)

def Reading.run : Nat → Reading → List Char → Option Reading
  | 0, _, _ => none
  | fuel + 1, r, cs =>
    match skipSpace r.flags cs with
    | [] => some r
    | cs =>
      match r.step cs with
      | some (r, rest) => run fuel r rest
      | none => none

/-- The expression of a pattern and the names of its captures. -/
def parse? (flags : Flags) (pattern : List Char) : Option (Expr × List (Nat × String)) := do
  let r ← (Reading.start flags).run (pattern.length + 1) pattern
  if !r.stack.isEmpty then none
  else
    let p := r.frame.close
    if depthLimit < p.depth then none else return (p.expr, r.names)

end Phrasebook.Regex
