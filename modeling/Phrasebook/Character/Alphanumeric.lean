import Phrasebook.Character.Category
import Phrasebook.Character.Property

/-!
Letters and numbers of all scripts.
-/

namespace Phrasebook.Character

def isAlphabetic (c : Char) : Bool := Property.alphabetic.has c.toNat

def isNumeric (c : Char) : Bool :=
  Category.decimalNumber.has c.toNat || Category.letterNumber.has c.toNat ||
    Category.otherNumber.has c.toNat

def isAlphanumeric (c : Char) : Bool := isAlphabetic c || isNumeric c

end Phrasebook.Character
