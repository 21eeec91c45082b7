/-!
The ranges of machine words of 64 bits, by which some numbers in texts are bounded.
-/

namespace Phrasebook.Text

/-- The first number that is too large for a signed word. -/
def signedEnd : Nat := 9223372036854775808

/-- The first number that is too large for an unsigned word. -/
def unsignedEnd : Nat := 18446744073709551616

end Phrasebook.Text
