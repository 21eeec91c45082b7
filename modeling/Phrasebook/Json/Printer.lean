import Phrasebook.Json.Basic
import Phrasebook.Text.Numeral

/-!
Writes JSON: on one line without blanks, or over several lines with two spaces to a level. Only
quotes, backslashes and control characters are escaped; every other character is written as it is.
-/

namespace Phrasebook.Json

def escapeChar (c : Char) : List Char :=
  if c = '"' then ['\\', '"']
  else if c = '\\' then ['\\', '\\']
  else if c = '\x08' then ['\\', 'b']
  else if c = '\x0c' then ['\\', 'f']
  else if c = '\n' then ['\\', 'n']
  else if c = '\r' then ['\\', 'r']
  else if c = '\t' then ['\\', 't']
  else if c.toNat < 0x20 then
    ['\\', 'u', '0', '0', Text.digitChar (c.toNat / 16), Text.digitChar (c.toNat % 16)]
  else [c]

def quoted (s : String) : List Char := '"' :: s.toList.flatMap escapeChar ++ ['"']

def Number.chars : Number → List Char
  | .whole n => (Text.decimalInt n).toList
  | .decimal negative digits exponent =>
    (if negative then ['-'] else []) ++ (Text.decimal digits).toList ++ ['e'] ++
      (Text.decimalInt exponent).toList

/-- Pieces with a separator between them. -/
def joined (sep : List Char) : List (List Char) → List Char
  | [] => []
  | [x] => x
  | x :: y :: more => x ++ sep ++ joined sep (y :: more)

mutual

def compactChars : Json → List Char
  | .null | .broken => ['n', 'u', 'l', 'l']
  | .bool true => ['t', 'r', 'u', 'e']
  | .bool false => ['f', 'a', 'l', 's', 'e']
  | .number n => n.chars
  | .string s => quoted s
  | .array items => '[' :: joined [','] (compactItems items) ++ [']']
  | .object fields => '{' :: joined [','] (compactFields fields) ++ ['}']

def compactItems : List Json → List (List Char)
  | [] => []
  | j :: more => compactChars j :: compactItems more

def compactFields : List (String × Json) → List (List Char)
  | [] => []
  | (name, j) :: more => (quoted name ++ ':' :: compactChars j) :: compactFields more

end

/-- The start of a line at a level of nesting. -/
def newLine (level : Nat) : List Char := '\n' :: List.replicate (2 * level) ' '

/-- Brackets around pieces, one piece to a line; nothing between the brackets when there is none. -/
def block (level : Nat) (opening closing : Char) : List (List Char) → List Char
  | [] => [opening, closing]
  | pieces =>
    opening :: newLine (level + 1) ++ joined (',' :: newLine (level + 1)) pieces ++
      newLine level ++ [closing]

mutual

def prettyChars (level : Nat) : Json → List Char
  | .null | .broken => ['n', 'u', 'l', 'l']
  | .bool true => ['t', 'r', 'u', 'e']
  | .bool false => ['f', 'a', 'l', 's', 'e']
  | .number n => n.chars
  | .string s => quoted s
  | .array items => block level '[' ']' (prettyItems level items)
  | .object fields => block level '{' '}' (prettyFields level fields)

def prettyItems (level : Nat) : List Json → List (List Char)
  | [] => []
  | j :: more => prettyChars (level + 1) j :: prettyItems level more

def prettyFields (level : Nat) : List (String × Json) → List (List Char)
  | [] => []
  | (name, j) :: more =>
    (quoted name ++ ':' :: ' ' :: prettyChars (level + 1) j) :: prettyFields level more

end

def compact (j : Json) : String := String.ofList (compactChars j)

def pretty (j : Json) : String := String.ofList (prettyChars 0 j)

end Phrasebook.Json
