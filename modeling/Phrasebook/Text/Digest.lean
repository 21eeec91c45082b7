import Phrasebook.Text.Numeral
import Phrasebook.Text.Utf8

/-!
MD5 digests, written as 32 hexadecimal digits. A digest is a fingerprint that tells two texts of one
collection apart; nothing here rests on it being hard to forge.
-/

namespace Phrasebook.Text

/-- The four words of an MD5 state. -/
structure DigestState where
  a : UInt32
  b : UInt32
  c : UInt32
  d : UInt32

def DigestState.start : DigestState := ⟨0x67452301, 0xEFCDAB89, 0x98BADCFE, 0x10325476⟩

def digestConstants : Array UInt32 := #[
  0xD76AA478, 0xE8C7B756, 0x242070DB, 0xC1BDCEEE, 0xF57C0FAF, 0x4787C62A,
  0xA8304613, 0xFD469501, 0x698098D8, 0x8B44F7AF, 0xFFFF5BB1, 0x895CD7BE,
  0x6B901122, 0xFD987193, 0xA679438E, 0x49B40821, 0xF61E2562, 0xC040B340,
  0x265E5A51, 0xE9B6C7AA, 0xD62F105D, 0x02441453, 0xD8A1E681, 0xE7D3FBC8,
  0x21E1CDE6, 0xC33707D6, 0xF4D50D87, 0x455A14ED, 0xA9E3E905, 0xFCEFA3F8,
  0x676F02D9, 0x8D2A4C8A, 0xFFFA3942, 0x8771F681, 0x6D9D6122, 0xFDE5380C,
  0xA4BEEA44, 0x4BDECFA9, 0xF6BB4B60, 0xBEBFBC70, 0x289B7EC6, 0xEAA127FA,
  0xD4EF3085, 0x04881D05, 0xD9D4D039, 0xE6DB99E5, 0x1FA27CF8, 0xC4AC5665,
  0xF4292244, 0x432AFF97, 0xAB9423A7, 0xFC93A039, 0x655B59C3, 0x8F0CCC92,
  0xFFEFF47D, 0x85845DD1, 0x6FA87E4F, 0xFE2CE6E0, 0xA3014314, 0x4E0811A1,
  0xF7537E82, 0xBD3AF235, 0x2AD7D2BB, 0xEB86D391]

/-- The rotation of step `i`: each group of sixteen steps has four amounts in turn. -/
def digestShift (i : Nat) : UInt32 :=
  let amounts : Array UInt32 := #[7, 12, 17, 22, 5, 9, 14, 20, 4, 11, 16, 23, 6, 10, 15, 21]
  amounts[4 * (i / 16) + i % 4]?.getD 0

def rotateLeft (w n : UInt32) : UInt32 := (w <<< n) ||| (w >>> (32 - n))

/-- Step `i` on a block of sixteen words. -/
def digestStep (block : Array UInt32) (s : DigestState) (i : Nat) : DigestState :=
  let (mix, word) :=
    match i / 16 with
    | 0 => ((s.b &&& s.c) ||| (~~~s.b &&& s.d), i)
    | 1 => ((s.d &&& s.b) ||| (~~~s.d &&& s.c), (5 * i + 1) % 16)
    | 2 => (s.b ^^^ s.c ^^^ s.d, (3 * i + 5) % 16)
    | _ => (s.c ^^^ (s.b ||| ~~~s.d), (7 * i) % 16)
  let sum := s.a + mix + digestConstants[i]?.getD 0 + block[word]?.getD 0
  ⟨s.d, s.b + rotateLeft sum (digestShift i), s.b, s.c⟩

def digestBlock (s : DigestState) (block : Array UInt32) : DigestState :=
  let t := (List.range 64).foldl (digestStep block) s
  ⟨s.a + t.a, s.b + t.b, s.c + t.c, s.d + t.d⟩

/-- Bytes as words of four, the lowest byte first. -/
def wordsOfBytes : List UInt8 → List UInt32
  | a :: b :: c :: d :: rest =>
    (a.toUInt32 ||| (b.toUInt32 <<< 8) ||| (c.toUInt32 <<< 16) ||| (d.toUInt32 <<< 24)) ::
      wordsOfBytes rest
  | _ => []

/-- The lowest `n` bytes of a number, the lowest first. -/
def littleEndian : Nat → Nat → List UInt8
  | 0, _ => []
  | n + 1, v => UInt8.ofNat (v % 256) :: littleEndian n (v / 256)

/-- One bit, zeros up to eight bytes short of a whole block, and the length in bits. -/
def digestPadding (length : Nat) : List UInt8 :=
  0x80 :: List.replicate ((119 - length % 64) % 64) 0 ++ littleEndian 8 (8 * length)

/-- Feeds the words to the state sixteen at a time; `fuel` bounds the number of blocks. -/
def digestWords : Nat → List UInt32 → DigestState → DigestState
  | fuel + 1, w :: ws, s =>
    digestWords fuel ((w :: ws).drop 16) (digestBlock s ((w :: ws).take 16).toArray)
  | _, _, s => s

def hexByte (b : UInt8) : List Char := [digitChar (b.toNat / 16), digitChar (b.toNat % 16)]

/-- The MD5 digest of some bytes, in lower-case hexadecimal digits. -/
def digestOfBytes (bytes : List UInt8) : String :=
  let ws := wordsOfBytes (bytes ++ digestPadding bytes.length)
  let s := digestWords ws.length ws DigestState.start
  String.ofList ([s.a, s.b, s.c, s.d].flatMap fun w => (littleEndian 4 w.toNat).flatMap hexByte)

/-- The MD5 digest of a text in UTF-8. -/
def digest (s : String) : String := digestOfBytes (utf8 s)

end Phrasebook.Text
