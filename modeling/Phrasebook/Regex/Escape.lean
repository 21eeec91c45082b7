import Phrasebook.Regex.Classes
import Phrasebook.Regex.Cursor

/-!
Escapes: characters given by their code or by a letter, classes, and conditions on a position.
-/

namespace Phrasebook.Regex

/-- What one element of a pattern stands for. A byte above 127 is possible only where the pattern is
not about characters, and then it is refused. -/
inductive Atom where
  | char (c : Char)
  | set (s : CharSet)
  | dot
  | look (l : Look)

/-- A class of one letter; its capital stands for the complement. Outside Unicode a complement could
split a character and is refused. -/
def letterClass? (flags : Flags) (c : Char) : Option CharSet :=
  match c with
  | 'd' => some (.digits flags.unicode)
  | 's' => some (.spaces flags.unicode)
  | 'w' => some (.words flags.unicode)
  | 'D' => if flags.unicode then some (.complement (.digits true)) else none
  | 'S' => if flags.unicode then some (.complement (.spaces true)) else none
  | 'W' => if flags.unicode then some (.complement (.words true)) else none
  | _ => none

/-- The set that the braces of a property name. The sign between property and value may be a colon,
an equality or an inequality; the flag tells the last. -/
def propertySet? (body : List Char) : Option (CharSet × Bool) :=
  match Text.cutAt? ['!', '='] body with
  | some (p, v) => (valuedSet? (String.ofList p) (String.ofList v)).map (·, true)
  | none =>
    match (Text.cutAt? [':'] body).or (Text.cutAt? ['='] body) with
    | some (p, v) => (valuedSet? (String.ofList p) (String.ofList v)).map (·, false)
    | none => (namedSet? (String.ofList body)).map (·, false)

/-- A property behind its letter, folded and then complemented. -/
def readProperty (flags : Flags) (negated : Bool) (cs : List Char) :
    Option (CharSet × List Char) := do
  let (body, rest) ←
    match skipSpace flags cs with
    | '\x7b' :: rest =>
      let rest := skipSpace flags rest
      readBraced flags (rest.length + 1) rest
    | c :: rest => if c = '\\' then none else some ([c], skipSpace flags rest)
    | [] => none
  let (set, differs) ← propertySet? body
  if !flags.unicode then none
  else return (.complementIf (negated != differs) (.foldIf flags.ignoreCase set), rest)

/-- The kind of boundary that braces behind the letter B may name. When the braces begin otherwise
they are left for a repetition. -/
def readBoundary (flags : Flags) (cs : List Char) : Option (Look × List Char) :=
  match cs with
  | '\x7b' :: rest =>
    match skipSpace flags rest with
    | [] => none
    | c :: more =>
      if c.isAlpha ∨ c = '-' then
        match readLetters flags (more.length + 1) (c :: more) with
        | (name, '\x7d' :: rest) =>
          match String.ofList name with
          | "start" => some (.wordStart flags.unicode, rest)
          | "end" => some (.wordEnd flags.unicode, rest)
          | "start-half" => some (.wordStartHalf flags.unicode, rest)
          | "end-half" => some (.wordEndHalf flags.unicode, rest)
          | _ => none
        | _ => none
      else some (.boundary flags.unicode, cs)
  | cs => some (.boundary flags.unicode, cs)

/-- The element that an escape stands for, behind its backslash. -/
def readEscape (flags : Flags) : List Char → Option (Atom × List Char)
  | [] => none
  | c :: rest =>
    match c with
    | 'x' => (readCode flags 2 rest).bind fun (d, more) =>
      if !flags.unicode ∧ 0x7F < d.toNat ∧ rest.head? ≠ some '\x7b' then none
      else some (.char d, more)
    | 'u' => (readCode flags 4 rest).map fun (d, rest) => (.char d, rest)
    | 'U' => (readCode flags 8 rest).map fun (d, rest) => (.char d, rest)
    | 'p' => (readProperty flags false rest).map fun (s, rest) => (.set s, rest)
    | 'P' => (readProperty flags true rest).map fun (s, rest) => (.set s, rest)
    | 'a' => some (.char '\x07', rest)
    | 'f' => some (.char '\x0c', rest)
    | 't' => some (.char '\t', rest)
    | 'n' => some (.char '\n', rest)
    | 'r' => some (.char '\r', rest)
    | 'v' => some (.char '\x0b', rest)
    | 'A' => some (.look .textStart, rest)
    | 'z' => some (.look .textEnd, rest)
    | 'b' => (readBoundary flags rest).map fun (l, rest) => (.look l, rest)
    | 'B' => some (.look (.notBoundary flags.unicode), rest)
    | '<' => some (.look (.wordStart flags.unicode), rest)
    | '>' => some (.look (.wordEnd flags.unicode), rest)
    | c =>
      match letterClass? flags c with
      | some s => some (.set s, rest)
      | none =>
        if c.toNat < 0x80 ∧ !(c.isAlpha || Text.isDigit c) then
          some (.char c, rest)
        else none

end Phrasebook.Regex
