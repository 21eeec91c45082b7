import Phrasebook.Regex.Hit
import Phrasebook.Text.Numeral
import Phrasebook.Text.Search

/-!
Replacement templates. A dollar sign with certain characters behind it refers to a part of the text
that was matched; every other dollar sign stands for itself. What is inserted is not read again.
-/

namespace Phrasebook.Template

inductive Reference where
  /-- A dollar sign. -/
  | dollar
  /-- All that the pattern took. -/
  | whole
  | front
  | behind
  | capture (index : Nat)
  | named (name : String)
  deriving DecidableEq, Repr

/-- A reference to a capture by number. Two digits are taken when there are so many captures. -/
def numbered? (captures : Nat) (d : Char) (rest : List Char) : Option (Reference × Nat) :=
  let one := Text.digitValue d
  let two? : Option Nat :=
    match rest with
    | e :: _ => if Text.isDigit e then some (10 * one + Text.digitValue e) else none
    | [] => none
  let inRange (n : Nat) : Bool := 1 ≤ n && n ≤ captures
  match two?.filter inRange with
  | some n => some (.capture n, 2)
  | none => if inRange one then some (.capture one, 1) else none

/-- The reference behind a dollar sign, with the number of characters that it takes. Names are read
only where the pattern has some. -/
def reference? (captures : Nat) (hasNames : Bool) : List Char → Option (Reference × Nat)
  | '$' :: _ => some (.dollar, 1)
  | '&' :: _ => some (.whole, 1)
  | '`' :: _ => some (.front, 1)
  | '\'' :: _ => some (.behind, 1)
  | '<' :: rest =>
    if hasNames then
      (Text.cutAt? ['>'] rest).map fun (name, _) =>
        (.named (String.ofList name), name.length + 2)
    else none
  | c :: rest => if Text.isDigit c then numbered? captures c rest else none
  | [] => none

/-- The template with every reference replaced by what `value` gives for it; the first `skip`
characters belong to a reference that has been read. -/
def fill (captures : Nat) (hasNames : Bool) (value : Reference → List Char) :
    Nat → List Char → List Char
  | _, [] => []
  | skip + 1, _ :: rest => fill captures hasNames value skip rest
  | 0, c :: rest =>
    if c = '$' then
      match reference? captures hasNames rest with
      | some (r, size) => value r ++ fill captures hasNames value size rest
      | none => '$' :: fill captures hasNames value 0 rest
    else c :: fill captures hasNames value 0 rest

/-- What a reference stands for at a hit. A capture that took no part stands for nothing. -/
def valueAt (c : Regex.Compiled) (text : List Char) (hit : Regex.Hit) : Reference → List Char
  | .dollar => ['$']
  | .whole => hit.whole.of text
  | .front => hit.whole.front text
  | .behind => hit.whole.behind text
  | .capture n => ((hit.groups[n - 1]?.join).map (·.of text)).getD []
  | .named name => ((c.named? hit name).map (·.of text)).getD []

def expand (c : Regex.Compiled) (template text : List Char) (hit : Regex.Hit) : List Char :=
  fill hit.groups.length c.isNamed (valueAt c text hit) 0 template

end Phrasebook.Template
