import Phrasebook.Regex.Machine
import Phrasebook.Regex.Parser

/-!
The engine: patterns read, checked for size and made into programs.
-/

namespace Phrasebook.Regex

/-- Of the flags of a matcher, three bear on what fits; whether all hits are replaced is not the
pattern's business, and the others have no effect. -/
def flagsOf (flags : String) : Flags :=
  { ignoreCase := flags.toList.contains 'i'
    multiLine := flags.toList.contains 'm'
    dotAll := flags.toList.contains 's' }

/-- Counts the captures up to the last one that is left in the expression. -/
def captureNames (e : Expr) (names : List (Nat × String)) : List (Option String) :=
  (List.range e.captureCount).map fun i =>
    if e.captureIndexes.contains (i + 1) then names.lookup (i + 1) else none

def engine : Engine := fun pattern flags => do
  let (e, names) ← parse? (flagsOf flags) pattern.toList
  if Expr.weightLimit < e.weight then none
  else
    let (program, start) := Program.ofExpr (.capture 0 e)
    return ⟨captureNames e names, findFrom program start e.captureCount⟩

end Phrasebook.Regex
