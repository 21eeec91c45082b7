import Phrasebook.Text.Numeral
import Phrasebook.Text.Utf8

/-!
Percent encoding. A link in a listing keeps the unreserved characters of a URL; the query of a link
keeps those of a form and writes a space as a plus sign. Decoding is lenient: a percent sign without
two hexadecimal digits behind it stands for itself.
-/

namespace Phrasebook.Text

def upperHexDigit (n : Nat) : Char :=
  if n < 10 then Char.ofNat ('0'.toNat + n) else Char.ofNat ('A'.toNat + (n - 10))

def percentByte (b : UInt8) : List Char :=
  ['%', upperHexDigit (b.toNat / 16), upperHexDigit (b.toNat % 16)]

def isAlphanumericAscii (c : Char) : Bool :=
  ('0' ≤ c && c ≤ '9') || ('A' ≤ c && c ≤ 'Z') || ('a' ≤ c && c ≤ 'z')

def isUnreserved (c : Char) : Bool :=
  isAlphanumericAscii c || c == '-' || c == '.' || c == '_' || c == '~'

def isFormSafe (c : Char) : Bool :=
  isAlphanumericAscii c || c == '*' || c == '-' || c == '.' || c == '_'

def percentEncodeChar (c : Char) : List Char :=
  if isUnreserved c then [c] else (String.utf8EncodeChar c).flatMap percentByte

def percentEncode (s : String) : String := String.ofList (s.toList.flatMap percentEncodeChar)

def formEncodeChar (c : Char) : List Char :=
  if isFormSafe c then [c]
  else if c = ' ' then ['+']
  else (String.utf8EncodeChar c).flatMap percentByte

def formEncode (s : String) : String := String.ofList (s.toList.flatMap formEncodeChar)

/-- A query from names and values, in order. -/
def formQuery (pairs : List (String × String)) : String :=
  "&".intercalate (pairs.map fun (name, value) => formEncode name ++ "=" ++ formEncode value)

/-- The bytes a percent-encoded text stands for. -/
def percentBytes : List Char → List UInt8
  | '%' :: x :: y :: rest =>
    match hexDigit? x, hexDigit? y with
    | some m, some n => UInt8.ofNat (16 * m + n) :: percentBytes rest
    | _, _ => 0x25 :: percentBytes (x :: y :: rest)
  | c :: rest => String.utf8EncodeChar c ++ percentBytes rest
  | [] => []

/-- The decoded text, unless the bytes are not UTF-8. -/
def percentDecode? (s : String) : Option String := ofUtf8? (percentBytes s.toList)

end Phrasebook.Text
