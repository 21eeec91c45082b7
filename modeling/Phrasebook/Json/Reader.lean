import Phrasebook.Json.Basic
import Phrasebook.Text.Numeral

/-!
Reads JSON documents. A document is one value between blanks. Whether every part of it has a value
is a second question, which does not matter for the parts that are passed over.
-/

namespace Phrasebook.Json

/-- A step of reading: the thing read and the text behind it. -/
abbrev Step (α : Type) := List Char → Option (α × List Char)

def isJsonBlank (c : Char) : Bool := c == ' ' || c == '\t' || c == '\n' || c == '\r'

def skipBlanks (cs : List Char) : List Char := cs.dropWhile isJsonBlank

def codeUnit? (a b c d : Char) : Option Nat := Text.hexValue? [a, b, c, d]

/-- The character of an escape of one letter. -/
def escaped? : Char → Option Char
  | '"' => some '"'
  | '\\' => some '\\'
  | '/' => some '/'
  | 'b' => some '\x08'
  | 'f' => some '\x0c'
  | 'n' => some '\n'
  | 'r' => some '\r'
  | 't' => some '\t'
  | _ => none

def isHighSurrogate (n : Nat) : Bool := 0xD800 ≤ n && n < 0xDC00

def isLowSurrogate (n : Nat) : Bool := 0xDC00 ≤ n && n < 0xE000

/-- The characters of a string up to its closing quote, which is consumed too. The characters are
missing when half of a surrogate pair stands alone. -/
def readString : Step (Option (List Char))
  | [] => none
  | '"' :: rest => some (some [], rest)
  | '\\' :: 'u' :: a :: b :: c :: d :: rest =>
    match codeUnit? a b c d with
    | none => none
    | some high =>
      if isHighSurrogate high then
        match rest with
        | '\\' :: 'u' :: e :: f :: g :: h :: rest =>
          match codeUnit? e f g h with
          | none => none
          | some low =>
            (readString rest).map fun (cs, rest) =>
              if isLowSurrogate low then
                let code := 0x10000 + (high - 0xD800) * 0x400 + (low - 0xDC00)
                (cs.map (Char.ofNat code :: ·), rest)
              else (none, rest)
        | rest => (readString rest).map fun (_, rest) => (none, rest)
      else if isLowSurrogate high then (readString rest).map fun (_, rest) => (none, rest)
      else (readString rest).map fun (cs, rest) => (cs.map (Char.ofNat high :: ·), rest)
  | '\\' :: e :: rest =>
    match escaped? e with
    | none => none
    | some c => (readString rest).map fun (cs, rest) => (cs.map (c :: ·), rest)
  | c :: rest =>
    if c = '\\' ∨ c.toNat < 0x20 then none
    else (readString rest).map fun (cs, rest) => (cs.map (c :: ·), rest)

/-- Appends decimal digits to `digits` as long as the result fits 64 bits, and counts those left. -/
def accumulate (digits : Nat) : List Char → Nat × Nat
  | [] => (digits, 0)
  | c :: rest =>
    let more := 10 * digits + Text.digitValue c
    if more < Text.unsignedEnd then accumulate more rest else (digits, rest.length + 1)

/-- A whole number without fraction or exponent. Minus zero is no whole number. -/
def wholeNumber (negative : Bool) (digits left : Nat) : Number :=
  if left = 0 ∧ !negative then .whole digits
  else if left = 0 ∧ 0 < digits ∧ digits ≤ Text.signedEnd then .whole (-digits)
  else .decimal negative digits left

/-- The exponent, after its letter. -/
def readExponent : Step Int := fun cs =>
  let (minus, cs) :=
    match cs with
    | '+' :: rest => (false, rest)
    | '-' :: rest => (true, rest)
    | cs => (false, cs)
  let ds := cs.takeWhile Text.isDigit
  if ds.isEmpty then none
  else
    let n : Int := Text.digitsValue ds
    some (if minus then -n else n, cs.dropWhile Text.isDigit)

/-- Fraction and exponent behind the digits of a whole part. -/
def readTail (negative : Bool) (digits left : Nat) : Step Number := fun cs =>
  let fraction : Option (Nat × Int × Bool × List Char) :=
    match cs with
    | '.' :: rest =>
      let ds := rest.takeWhile Text.isDigit
      if ds.isEmpty then none
      else
        let (more, ignored) := accumulate digits ds
        some (more, (left : Int) - (ds.length - ignored : Nat), true, rest.dropWhile Text.isDigit)
    | cs => some (digits, left, false, cs)
  match fraction with
  | none => none
  | some (digits', exponent, hasPoint, cs) =>
    let plain :=
      if hasPoint then Number.decimal negative digits' exponent else wholeNumber negative digits left
    match cs with
    | c :: rest =>
      if c = 'e' ∨ c = 'E' then
        (readExponent rest).map fun (e, rest) => (.decimal negative digits' (exponent + e), rest)
      else some (plain, c :: rest)
    | [] => some (plain, [])

/-- A number after its sign. A leading zero stands alone. -/
def readUnsigned (negative : Bool) : Step Number
  | '0' :: c :: rest => if Text.isDigit c then none else readTail negative 0 0 (c :: rest)
  | ['0'] => readTail negative 0 0 []
  | cs =>
    let ds := cs.takeWhile Text.isDigit
    if ds.isEmpty then none
    else
      let (digits, left) := accumulate 0 ds
      readTail negative digits left (cs.dropWhile Text.isDigit)

/-- A value without brackets. -/
def readScalar : Step Json
  | 'n' :: 'u' :: 'l' :: 'l' :: rest => some (.null, rest)
  | 't' :: 'r' :: 'u' :: 'e' :: rest => some (.bool true, rest)
  | 'f' :: 'a' :: 'l' :: 's' :: 'e' :: rest => some (.bool false, rest)
  | '"' :: rest =>
    (readString rest).map fun (cs, rest) =>
      ((cs.map fun cs => .string (String.ofList cs)).getD .broken, rest)
  | '-' :: rest => (readUnsigned true rest).map fun (n, rest) => (.number n, rest)
  | cs => (readUnsigned false cs).map fun (n, rest) => (.number n, rest)

/-- One item or more, commas between them, up to the closing bracket. Each round reads at least one
character, so a fuel of the length of the text is never used up. -/
def readItems {α : Type} (item : Step α) (close : Char) : Nat → Step (List α)
  | 0, _ => none
  | fuel + 1, cs =>
    match item (skipBlanks cs) with
    | none => none
    | some (x, rest) =>
      match skipBlanks rest with
      | [] => none
      | c :: rest =>
        if c = ',' then (readItems item close fuel rest).map fun (xs, rest) => (x :: xs, rest)
        else if c = close then some ([x], rest)
        else none

/-- The items between an opening bracket, already read, and the closing one. -/
def readList {α : Type} (item : Step α) (close : Char) : Step (List α) := fun cs =>
  match skipBlanks cs with
  | [] => none
  | c :: rest =>
    if c = close then some ([], rest) else readItems item close (c :: rest).length (c :: rest)

/-- A name, a colon and a value. -/
def readMember (value : Step Json) : Step (Option String × Json)
  | '"' :: rest =>
    match readString rest with
    | none => none
    | some (name, rest) =>
      match skipBlanks rest with
      | ':' :: rest =>
        (value (skipBlanks rest)).map fun (j, rest) => ((name.map String.ofList, j), rest)
      | _ => none
  | _ => none

/-- An object all of whose names have a value. -/
def ofMembers (members : List (Option String × Json)) : Json :=
  match members.mapM fun (name, j) => name.map (·, j) with
  | some fields => .object fields
  | none => .broken

/-- A value; `fuel` bounds the brackets open at a time. -/
def readValue : Nat → Step Json
  | 0, cs => readScalar cs
  | fuel + 1, cs =>
    match cs with
    | '[' :: rest => (readList (readValue fuel) ']' rest).map fun (xs, rest) => (.array xs, rest)
    | '{' :: rest =>
      (readList (readMember (readValue fuel)) '}' rest).map fun (xs, rest) => (ofMembers xs, rest)
    | cs => readScalar cs

/-- One value, with blanks around it and nothing else. -/
def ofChars? (cs : List Char) : Option Json :=
  match readValue cs.length (skipBlanks cs) with
  | some (j, rest) => if (skipBlanks rest).isEmpty then some j else none
  | none => none

/-- The value of a text, in which parts that are passed over need not be sound. -/
def parse? (s : String) : Option Json := ofChars? s.toList

/-- The value of a text that is sound in all its parts. -/
def parseSound? (s : String) : Option Json := (parse? s).filter (isSound maxDepth)

end Phrasebook.Json
