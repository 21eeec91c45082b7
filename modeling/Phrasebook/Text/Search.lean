/-!
Looking for one text inside another: occurrence, the first occurrence replaced, and splitting at a
character. The empty text occurs in every text, first of all at its front.
-/

namespace Phrasebook.Text

/-- What follows `front`, when the list begins with it. -/
def dropFront? {α : Type} [BEq α] : List α → List α → Option (List α)
  | [], rest => some rest
  | _ :: _, [] => none
  | x :: front, y :: rest => if x == y then dropFront? front rest else none

def occursIn {α : Type} [BEq α] (needle : List α) : List α → Bool
  | [] => needle.isEmpty
  | c :: rest => needle.isPrefixOf (c :: rest) || occursIn needle rest

/-- The text before the first occurrence of `needle` and the text after it. -/
def cutAt? {α : Type} [BEq α] (needle : List α) : List α → Option (List α × List α)
  | [] => if needle.isEmpty then some ([], []) else none
  | c :: rest =>
    match dropFront? needle (c :: rest) with
    | some after => some ([], after)
    | none => (cutAt? needle rest).map fun (before, after) => (c :: before, after)

/-- The first occurrence replaced; the text itself when there is none. -/
def replaceFirst (needle replacement text : List Char) : List Char :=
  match cutAt? needle text with
  | some (before, after) => before ++ replacement ++ after
  | none => text

def contains (text needle : String) : Bool := occursIn needle.toList text.toList

/-- The two sides of the first `d`. -/
def splitOnce? (d : Char) (s : String) : Option (String × String) :=
  (cutAt? [d] s.toList).map fun (before, after) => (String.ofList before, String.ofList after)

/-- The pieces between the characters that satisfy `p`: one more than there are such characters. -/
def splitList {α : Type} (p : α → Bool) : List α → List (List α)
  | [] => [[]]
  | c :: rest =>
    if p c then [] :: splitList p rest
    else
      match splitList p rest with
      | piece :: more => (c :: piece) :: more
      | [] => [[c]]

def splitAll (d : Char) (s : String) : List String := (splitList (· == d) s.toList).map String.ofList

def lowerList (cs : List Char) : List Char := cs.map Char.toLower

/-- Small letters for the capitals of ASCII; every other character stays. -/
def lowerAscii (s : String) : String := String.ofList (lowerList s.toList)

end Phrasebook.Text
