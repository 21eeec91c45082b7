/-!
What is asked of an engine for patterns: whether and where a pattern fits a text from a given
position on. Everything else about matching is built on this one question.
-/

namespace Phrasebook.Regex

/-- A stretch of a text, from position `start` up to, and without, position `stop`. -/
structure Span where
  start : Nat
  stop : Nat
  deriving DecidableEq, Repr

/-- A place where a pattern fits: the whole of it, and for each capture the part that it took, if it
took part. -/
structure Hit where
  whole : Span
  groups : List (Option Span)
  deriving DecidableEq, Repr

def Span.of (text : List Char) (s : Span) : List Char := (text.take s.stop).drop s.start

/-- The text in front of a stretch. -/
def Span.front (text : List Char) (s : Span) : List Char := text.take s.start

/-- The text behind a stretch. -/
def Span.behind (text : List Char) (s : Span) : List Char := text.drop s.stop

/-- A pattern ready for use: the names of its captures, and the first hit that begins at or after a
position of a text. -/
structure Compiled where
  names : List (Option String)
  find : List Char → Nat → Option Hit

/-- Reads a pattern with its flags; there is nothing to use when the pattern is malformed. -/
abbrev Engine := String → String → Option Compiled

namespace Compiled

/-- The hits from `start` on. An empty hit right behind the hit before it does not count; the search
goes on from the next position. -/
def hitsFrom (c : Compiled) (text : List Char) : Nat → Nat → Option Nat → List Hit
  | 0, _, _ => []
  | fuel + 1, start, last =>
    match c.find text start with
    | none => []
    | some hit =>
      if hit.whole.start = hit.whole.stop ∧ last = some hit.whole.stop then
        match c.find text (start + 1) with
        | none => []
        | some hit => hit :: hitsFrom c text fuel hit.whole.stop (some hit.whole.stop)
      else hit :: hitsFrom c text fuel hit.whole.stop (some hit.whole.stop)

/-- All hits that do not overlap, from left to right. Two hits never end at the same position, so
there are at most as many as positions. -/
def hits (c : Compiled) (text : List Char) : List Hit := c.hitsFrom text (text.length + 1) 0 none

def first? (c : Compiled) (text : List Char) : Option Hit := c.find text 0

def isNamed (c : Compiled) : Bool := c.names.any Option.isSome

/-- The part taken by the capture of a name. -/
def named? (c : Compiled) (hit : Hit) (name : String) : Option Span :=
  ((c.names.zip hit.groups).find? (·.1 == some name)).bind (·.2)

/-- The text with every given hit replaced; `done` is the position up to which it is copied. -/
def substitute (text : List Char) (expand : Hit → List Char) : Nat → List Hit → List Char
  | done, [] => text.drop done
  | done, hit :: more =>
    Span.of text ⟨done, hit.whole.start⟩ ++ expand hit ++
      substitute text expand hit.whole.stop more

end Compiled

end Phrasebook.Regex
