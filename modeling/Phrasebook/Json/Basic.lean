import Phrasebook.Text.Word

/-!
Values of JSON documents. Fields of an object stay in the order in which they were written, and a
repeated name stays repeated: what a repetition means is for the reader of a record to decide.
-/

namespace Phrasebook

/-- A number is whole when it is written without fraction and exponent and fits 64 bits. Any other
number is kept as sign, leading digits and power of ten. -/
inductive Json.Number where
  | whole (value : Int)
  | decimal (negative : Bool) (digits : Nat) (exponent : Int)
  deriving DecidableEq, Repr

inductive Json where
  | null
  | bool (value : Bool)
  | number (value : Json.Number)
  | string (value : String)
  | array (items : List Json)
  | object (fields : List (String × Json))
  /-- A string, or an object with a name, in which half of a surrogate pair stands alone. It is
  well-formed but has no value. -/
  | broken
  deriving Inhabited

namespace Json

/-- The range of a signed 64-bit word. -/
def isWord (n : Int) : Prop := -(Text.signedEnd : Int) ≤ n ∧ n < Text.signedEnd

instance (n : Int) : Decidable (isWord n) := inferInstanceAs (Decidable (_ ∧ _))

/-- `n` rounded to 53 significant bits, a tie to the even neighbour. -/
def round53 (n : Nat) : Nat :=
  let shift := n.log2 + 1 - 53
  let unit := Nat.pow 2 shift
  let low := n % unit
  let high := n / unit
  let up := 2 * low > unit ∨ (2 * low = unit ∧ high % 2 = 1)
  (if up then high + 1 else high) * unit

/-- The point from which numbers round to infinity. -/
def overflow : Nat := Nat.pow 2 1024 - Nat.pow 2 970

/-- The number does not lie beyond the largest double: the product of its digits and its power of
ten, both rounded, stays below the point of overflow. -/
def Number.isFinite : Number → Bool
  | .whole _ => true
  | .decimal _ digits exponent =>
    digits = 0 || exponent < 0 ||
      (exponent ≤ 308 && round53 digits * round53 (Nat.pow 10 exponent.toNat) < overflow)

mutual

/-- Every part has a value, and at most `depth` brackets and braces are open at a time. -/
def isSound : Nat → Json → Bool
  | _, .null | _, .bool _ | _, .string _ => true
  | _, .number n => n.isFinite
  | _, .broken => false
  | 0, .array _ | 0, .object _ => false
  | depth + 1, .array items => areSound depth items
  | depth + 1, .object fields => areSoundFields depth fields

def areSound : Nat → List Json → Bool
  | _, [] => true
  | depth, j :: more => isSound depth j && areSound depth more

def areSoundFields : Nat → List (String × Json) → Bool
  | _, [] => true
  | depth, (_, j) :: more => isSound depth j && areSoundFields depth more

end

/-- The most brackets and braces that may be open at a time in a document. -/
def maxDepth : Nat := 127

def ofInt (n : Int) : Json := .number (.whole n)

def ofNat (n : Nat) : Json := .number (.whole n)

def ofStrings (xs : List String) : Json := .array (xs.map .string)

/-- A missing value is written as null. -/
def ofOption {α : Type} (encode : α → Json) : Option α → Json
  | some x => encode x
  | none => .null

def string? : Json → Option String
  | .string s => some s
  | _ => none

def bool? : Json → Option Bool
  | .bool b => some b
  | _ => none

/-- A whole number that fits a signed word. -/
def int? : Json → Option Int
  | .number (.whole n) => if isWord n then some n else none
  | _ => none

/-- A whole number that fits an unsigned word. -/
def nat? : Json → Option Nat
  | .number (.whole n) => if 0 ≤ n ∧ n < Text.unsignedEnd then some n.toNat else none
  | _ => none

/-- Every item of a list read by `decode`. -/
def list? {α : Type} (decode : Json → Option α) : Json → Option (List α)
  | .array xs => xs.mapM decode
  | _ => none

/-- Null stands for no value. -/
def optional? {α : Type} (decode : Json → Option α) : Json → Option (Option α)
  | .null => some none
  | j => (decode j).map some

end Json

end Phrasebook
