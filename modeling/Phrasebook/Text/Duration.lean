import Phrasebook.Text.Numeral

/-!
Durations as they are shown beside a running import.
-/

namespace Phrasebook.Text

/-- Minutes and seconds until `remaining` things are done at `speed` things a second. A speed that is
not above zero leaves nothing to say, and a time beyond 64 bits is cut to them. -/
def eta (remaining : Nat) (speed : Float) : String :=
  let seconds := if 0 < speed then (remaining.toUInt64.toFloat / speed).toUInt64.toNat else 0
  padded 2 (seconds / 60) ++ ":" ++ padded 2 (seconds % 60)

end Phrasebook.Text
