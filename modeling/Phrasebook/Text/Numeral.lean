/-!
Whole numbers in decimal and hexadecimal notation, with and without leading zeros.
-/

namespace Phrasebook.Text

def digitChar (n : Nat) : Char :=
  if n < 10 then Char.ofNat ('0'.toNat + n) else Char.ofNat ('a'.toNat + (n - 10))

/-- Digits of `n` in the given base, the most significant first, at least one. -/
def digitsFrom (base n : Nat) (more : List Char) : List Char :=
  if _h : base ≤ 1 ∨ n < base then digitChar n :: more
  else digitsFrom base (n / base) (digitChar (n % base) :: more)
termination_by n
decreasing_by exact Nat.div_lt_self (by omega) (by omega)

def decimal (n : Nat) : String := String.ofList (digitsFrom 10 n [])

def hex (n : Nat) : String := String.ofList (digitsFrom 16 n [])

/-- A number below zero has a minus sign in front. -/
def decimalInt : Int → String
  | .ofNat n => decimal n
  | .negSucc n => "-" ++ decimal (n + 1)

/-- Zeros in front up to the given width. -/
def padLeft (width : Nat) (s : String) : String :=
  String.ofList (List.replicate (width - s.length) '0') ++ s

def padded (width n : Nat) : String := padLeft width (decimal n)

def isDigit (c : Char) : Bool := '0' ≤ c && c ≤ '9'

def digitValue (c : Char) : Nat := c.toNat - '0'.toNat

def hexDigit? (c : Char) : Option Nat :=
  if isDigit c then some (digitValue c)
  else if 'a' ≤ c && c ≤ 'f' then some (c.toNat - 'a'.toNat + 10)
  else if 'A' ≤ c && c ≤ 'F' then some (c.toNat - 'A'.toNat + 10)
  else none

def digitsValue (cs : List Char) : Nat := cs.foldl (fun n c => 10 * n + digitValue c) 0

/-- A whole number written with digits only, at least one. -/
def natural? (cs : List Char) : Option Nat :=
  if cs.isEmpty || !cs.all isDigit then none else some (digitsValue cs)

/-- Hexadecimal digits only, at least one, in either case. -/
def hexValue? (cs : List Char) : Option Nat :=
  if cs.isEmpty then none
  else cs.foldl (fun n c => n.bind fun n => (hexDigit? c).map (16 * n + ·)) (some 0)

end Phrasebook.Text
