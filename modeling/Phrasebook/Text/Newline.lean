/-!
Line ends. A carriage return, alone or before a line feed, becomes one line feed.
-/

namespace Phrasebook.Text

def unifyNewlinesList : List Char → List Char
  | '\r' :: '\n' :: rest => '\n' :: unifyNewlinesList rest
  | '\r' :: rest => '\n' :: unifyNewlinesList rest
  | c :: rest => c :: unifyNewlinesList rest
  | [] => []

def unifyNewlines (s : String) : String := String.ofList (unifyNewlinesList s.toList)

/-- Splits at line feeds. A carriage return before the line feed belongs to the line end, and no
empty line follows a final line feed. -/
def linesFrom (line : List Char) : List Char → List String
  | [] => if line.isEmpty then [] else [String.ofList line.reverse]
  | '\n' :: rest =>
    let line := if line.head? = some '\r' then line.tail else line
    String.ofList line.reverse :: linesFrom [] rest
  | c :: rest => linesFrom (c :: line) rest

def lines (s : String) : List String := linesFrom [] s.toList

end Phrasebook.Text
