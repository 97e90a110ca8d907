/-!
# Scalars

Scores, percentages and efforts are reckoned in a type of scalars. A run takes floating-point
numbers; laws of the exact values are laws of rational numbers.
-/

namespace MigrationAudit

/-- Numbers that scores, percentages and efforts are reckoned in. -/
class Scalar (α : Type) extends Add α, Mul α, Div α, LE α, LT α where
  ofNat : Nat → α
  /-- The nearest whole number; a half goes away from zero. -/
  round : α → α
  decideLe : DecidableLE α
  decideLt : DecidableLT α

namespace Scalar

attribute [reducible, instance] decideLe decideLt

variable {α : Type} [Scalar α]

def max (a b : α) : α := if a ≤ b then b else a

def min (a b : α) : α := if a ≤ b then a else b

def clamp (low high a : α) : α := if a < low then low else if high < a then high else a

/-- The sum of a list, taken from its front. -/
def sum (l : List α) : α := l.foldl (· + ·) (ofNat 0)

/-- The nearest multiple of one part in `parts`. -/
def roundTo (parts : Nat) (a : α) : α := round (a * ofNat parts) / ofNat parts

def ratio (m n : Nat) : α := ofNat m / ofNat n

end Scalar

/-- The nearest whole floating-point number; a half goes away from zero. Zeros stay as they are, and
what is not below `2 ^ 52` has no fraction. -/
def roundFloat (a : Float) : Float :=
  let magnitude := a.abs
  if 0 < magnitude ∧ magnitude < 4503599627370496 then
    let whole := magnitude.toUInt64.toFloat
    let rounded := if magnitude - whole < 0.5 then whole else whole + 1
    if a < 0 then -rounded else rounded
  else a

/-- Floating-point numbers. Natural numbers are counts, which fit a machine word. -/
instance : Scalar Float where
  ofNat n := (UInt64.ofNatClamp n).toFloat
  round := roundFloat
  decideLe := inferInstance
  decideLt := inferInstance

def roundHalfAway (a : Rat) : Int := if a < 0 then -(-a + 1 / 2).floor else (a + 1 / 2).floor

instance : Scalar Rat where
  ofNat n := n
  round a := roundHalfAway a
  decideLe := inferInstance
  decideLt := inferInstance

end MigrationAudit
