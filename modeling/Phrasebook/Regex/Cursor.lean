import Phrasebook.Regex.Expr
import Phrasebook.Text.Blank
import Phrasebook.Text.Numeral

/-!
Reading a pattern from left to right: the flags in force, blanks that do not count, and pieces of
expressions with the depth of their nesting.
-/

namespace Phrasebook.Regex

/-- The flags in force at a place of a pattern. -/
structure Flags where
  ignoreCase : Bool := false
  multiLine : Bool := false
  dotAll : Bool := false
  swapGreed : Bool := false
  unicode : Bool := true
  crlf : Bool := false
  verbose : Bool := false
  deriving DecidableEq, Repr, Inhabited

/-- An expression, the number of levels it is built of, and whether it only sets flags. -/
structure Piece where
  expr : Expr
  depth : Nat
  setsFlags : Bool := false
  deriving Inhabited

/-- The text behind a comment, which ends with its line. -/
def skipLine : List Char → List Char
  | [] => []
  | c :: rest => if c = '\n' then rest else skipLine rest

/-- Drops blanks and comments; `fuel` bounds their number. -/
def skipVerbose : Nat → List Char → List Char
  | fuel + 1, c :: rest =>
    if Text.isBlank c then skipVerbose fuel rest
    else if c = '#' then skipVerbose fuel (skipLine rest)
    else c :: rest
  | _, cs => cs

/-- Blanks and comments count only where the pattern is not verbose. -/
def skipSpace (flags : Flags) (cs : List Char) : List Char :=
  if flags.verbose then skipVerbose cs.length cs else cs

/-- The text behind the first character and the space after it. -/
def advance (flags : Flags) : List Char → List Char
  | [] => []
  | _ :: rest => skipSpace flags rest

/-- Some number of hexadecimal digits; `left` counts those still to come. -/
def readHexDigits (flags : Flags) : Nat → List Char → List Char → Option (List Char × List Char)
  | 0, digits, cs => some (digits.reverse, cs)
  | left + 1, digits, c :: rest =>
    if (Text.hexDigit? c).isSome then
      readHexDigits flags left (c :: digits) (skipSpace flags rest)
    else none
  | _ + 1, _, [] => none

/-- The characters up to a closing brace, which is dropped; `fuel` bounds their number. -/
def readBraced (flags : Flags) : Nat → List Char → Option (List Char × List Char)
  | fuel + 1, c :: rest =>
    if c = '\x7d' then some ([], rest)
    else (readBraced flags fuel (skipSpace flags rest)).map fun (cs, rest) => (c :: cs, rest)
  | _, _ => none

def charOfCode? (n : Nat) : Option Char :=
  if n.isValidChar then some (Char.ofNat n) else none

/-- A character given by its code, behind the letter of the escape. -/
def readCode (flags : Flags) (width : Nat) (cs : List Char) : Option (Char × List Char) :=
  match skipSpace flags cs with
  | '\x7b' :: rest => do
    let rest := skipSpace flags rest
    let (digits, rest) ← readBraced flags (rest.length + 1) rest
    return (← charOfCode? (← Text.hexValue? digits), skipSpace flags rest)
  | rest => do
    let (digits, rest) ← readHexDigits flags width [] rest
    return (← charOfCode? (← Text.hexValue? digits), rest)

/-- Decimal digits with blanks around them; the value must fit 32 bits. -/
def readCount (flags : Flags) (cs : List Char) : Option (Nat × List Char) :=
  let cs := cs.dropWhile Text.isBlank
  let rec digits : Nat → List Char → List Char × List Char
    | fuel + 1, c :: rest =>
      if Text.isDigit c then
        let (ds, rest) := digits fuel (skipSpace flags rest)
        (c :: ds, rest)
      else ([], c :: rest)
    | _, cs => ([], cs)
  let (ds, rest) := digits cs.length cs
  if ds.isEmpty ∨ 4294967296 ≤ Text.digitsValue ds then none
  else some (Text.digitsValue ds, skipSpace flags (rest.dropWhile Text.isBlank))

/-- The letters and hyphens at the front of a text, with space between them. -/
def readLetters (flags : Flags) : Nat → List Char → List Char × List Char
  | fuel + 1, c :: rest =>
    if c.isAlpha ∨ c = '-' then
      let (cs, rest) := readLetters flags fuel (skipSpace flags rest)
      (c :: cs, rest)
    else ([], c :: rest)
  | _, cs => ([], cs)

end Phrasebook.Regex
