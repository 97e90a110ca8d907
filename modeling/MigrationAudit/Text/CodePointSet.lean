/-!
# Sets of code points

A set is written as the ascending list of the code points at which membership changes. A code point
belongs to the set when the number of changes at or below it is odd.
-/

namespace MigrationAudit.Text

/-- A set of code points, by the places where membership changes. -/
structure CodePointSet where
  changes : Array Nat

namespace CodePointSet

/-- The number of changes at or below `n`, when it lies between `lo` and `hi`. -/
def rank (changes : Array Nat) (n lo hi : Nat) : Nat :=
  if _h : lo < hi then
    let mid := (lo + hi) / 2
    if changes.getD mid 0 ≤ n then rank changes n (mid + 1) hi else rank changes n lo mid
  else lo
termination_by hi - lo

def contains (s : CodePointSet) (c : Char) : Bool :=
  rank s.changes c.toNat 0 s.changes.size % 2 == 1

end CodePointSet

end MigrationAudit.Text
