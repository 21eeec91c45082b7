import Phrasebook.Text.Blank
import Phrasebook.Text.Utf8

/-!
The lines of an environment file. A quotation that is still open at the end of a line, or a blank or
backslash there, joins the next line to it. A comment line is a line of its own, and a hash sign
behind a blank ends a line.
-/

namespace Phrasebook.Env

/-- Where a line stands between two characters. -/
inductive LineState where
  | plain
  | blank
  | escape
  | weak
  | weakEscape
  | strong
  | strongEscape
  | comment
  deriving DecidableEq, Repr

def LineState.step (state : LineState) (c : Char) : LineState :=
  match state with
  | .plain =>
    if Text.isBlank c ∧ c ≠ '\n' ∧ c ≠ '\r' then .blank
    else if c = '\\' then .escape
    else if c = '"' then .weak
    else if c = '\'' then .strong
    else .plain
  | .blank =>
    if c = '#' then .comment
    else if c = '\\' then .escape
    else if c = '"' then .weak
    else if c = '\'' then .strong
    else .plain
  | .escape => .plain
  | .weak => if c = '\\' then .weakEscape else if c = '"' then .plain else .weak
  | .weakEscape => .weak
  | .strong => if c = '\\' then .strongEscape else if c = '\'' then .plain else .strong
  | .strongEscape => .strong
  | .comment => .comment

/-- Reads one line in a given state; the text up to a comment and the state at the end. -/
def scanLine : LineState → List Char → List Char × LineState
  | state, [] => ([], state)
  | state, c :: rest =>
    match state.step c with
    | .comment => ([], .comment)
    | next =>
      let (cs, last) := scanLine next rest
      (c :: cs, last)

/-- A line without its line end. -/
def chomp (cs : List Char) : List Char :=
  match cs.reverse with
  | '\n' :: '\r' :: front => front.reverse
  | '\n' :: front => front.reverse
  | _ => cs

/-- The bytes up to and with the first line feed, and the bytes behind it. -/
def cutLine : List UInt8 → List UInt8 × List UInt8
  | [] => ([], [])
  | b :: rest =>
    if b = 10 then ([b], rest)
    else
      let (line, more) := cutLine rest
      (b :: line, more)

/-- A line to read, or the end of the file inside one. Behind a fault nothing more is read. -/
inductive Line where
  | text (cs : List Char)
  | fault
  deriving DecidableEq

/-- Joins lines of bytes to lines of text; `joined` is what has been read of the current one. Every
round reads a line, so the length of the file bounds their number. -/
def linesFrom : Nat → LineState → List Char → List UInt8 → List Line
  | 0, _, _, _ => []
  | fuel + 1, state, joined, bytes =>
    if bytes.isEmpty then if state = .plain then [] else [.fault]
    else
      let (line, rest) := cutLine bytes
      match Text.ofUtf8? line with
      | none => [.fault]
      | some s =>
        let buffer := joined ++ s.toList
        if (Text.trimLeft buffer).head? = some '#' then .text [] :: linesFrom fuel .plain [] rest
        else
          match scanLine state s.toList with
          | (_, .plain) => .text (chomp buffer) :: linesFrom fuel .plain [] rest
          | (front, .comment) => .text (joined ++ front) :: linesFrom fuel .plain [] rest
          | (_, state) => linesFrom fuel state buffer rest

/-- A mark of the byte order in front of a file is dropped. -/
def dropMark (bytes : List UInt8) : List UInt8 :=
  match bytes with
  | 0xEF :: 0xBB :: 0xBF :: rest => rest
  | bytes => bytes

def lines (bytes : List UInt8) : List Line :=
  let bytes := dropMark bytes
  linesFrom (bytes.length + 1) .plain [] bytes

end Phrasebook.Env
