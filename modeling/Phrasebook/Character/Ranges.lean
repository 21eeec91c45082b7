/-!
Sets of characters as ascending ranges of code points, and the compact notation in which the tables
of this folder are written down.
-/

namespace Phrasebook.Character

/-- Closed ranges of code points, ascending and disjoint. -/
abbrev Ranges := List (Nat × Nat)

/-- Membership stops at the first range that begins above the code point. -/
def Ranges.has : Ranges → Nat → Bool
  | [], _ => false
  | (lo, hi) :: rest, n => if n < lo then false else n ≤ hi || Ranges.has rest n

/-- The value of a digit of base 36; anything else counts as zero. -/
def digit36 (c : Char) : Nat :=
  if '0' ≤ c ∧ c ≤ '9' then c.toNat - '0'.toNat
  else if 'a' ≤ c ∧ c ≤ 'z' then c.toNat - 'a'.toNat + 10
  else 0

/-- The blank-separated numbers of a table; `current` is the number being read. -/
def numbers36 : Option Nat → List Char → List Nat
  | none, [] => []
  | some n, [] => [n]
  | current, c :: rest =>
    if c = ' ' then
      match current with
      | none => numbers36 none rest
      | some n => n :: numbers36 none rest
    else numbers36 (some (current.getD 0 * 36 + digit36 c)) rest

/-- Pairs of a gap since the end of the range before and a width. -/
def rangesFrom : Nat → List Nat → Ranges
  | start, gap :: width :: rest =>
    (start + gap, start + gap + width) :: rangesFrom (start + gap + width + 1) rest
  | _, _ => []

/-- Reads a table: for each range, in base 36, the number of code points skipped since the range
before it, then one less than its length. -/
def Ranges.ofTable (table : String) : Ranges :=
  rangesFrom 0 (numbers36 none table.toList)

end Phrasebook.Character
