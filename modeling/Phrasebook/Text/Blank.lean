/-!
Blank characters, trimming and the words between blanks. A blank is any character with the
property White_Space, so a no-break space and the line separators count as well.
-/

namespace Phrasebook.Text

def isBlank (c : Char) : Bool :=
  let n := c.toNat
  (9 ≤ n && n ≤ 13) || n == 0x20 || n == 0x85 || n == 0xA0 || n == 0x1680 ||
    (0x2000 ≤ n && n ≤ 0x200A) || n == 0x2028 || n == 0x2029 || n == 0x202F || n == 0x205F ||
    n == 0x3000

def trimLeft (cs : List Char) : List Char := cs.dropWhile isBlank

def trimRight (cs : List Char) : List Char := (cs.reverse.dropWhile isBlank).reverse

/-- The text without the blanks at either end. -/
def trim (s : String) : String := String.ofList (trimRight (trimLeft s.toList))

/-- A text of blanks only counts as missing. -/
def nonBlank? (s : String) : Option String :=
  let t := trim s
  if t.isEmpty then none else some t

/-- The maximal runs of characters that are not blank; `word` holds the run being read, backwards. -/
def wordsFrom (word : List Char) : List Char → List String
  | [] => if word.isEmpty then [] else [String.ofList word.reverse]
  | c :: rest =>
    if isBlank c then
      if word.isEmpty then wordsFrom [] rest
      else String.ofList word.reverse :: wordsFrom [] rest
    else wordsFrom (c :: word) rest

def words (s : String) : List String := wordsFrom [] s.toList

/-- Drops every leading and every trailing copy of one character. -/
def trimChar (d : Char) (s : String) : String :=
  String.ofList ((s.toList.dropWhile (· == d)).reverse.dropWhile (· == d)).reverse

def trimCharRight (d : Char) (s : String) : String :=
  String.ofList (s.toList.reverse.dropWhile (· == d)).reverse

def trimCharLeft (d : Char) (s : String) : String := String.ofList (s.toList.dropWhile (· == d))

end Phrasebook.Text
