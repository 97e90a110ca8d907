/-!
# Positions in a text

Positions are counted in the bytes of the UTF-8 form. A span is half open.
-/

namespace MigrationAudit.Text

/-- The number of bytes of the UTF-8 form. -/
def width : List Char → Nat
  | [] => 0
  | c :: cs => c.utf8Size + width cs

/-- The characters that start before byte `n`. -/
def takeBytes : Nat → List Char → List Char
  | 0, _ => []
  | _ + 1, [] => []
  | n + 1, c :: cs => c :: takeBytes (n + 1 - c.utf8Size) cs

/-- The characters that start at or after byte `n`. -/
def dropBytes : Nat → List Char → List Char
  | 0, cs => cs
  | _ + 1, [] => []
  | n + 1, c :: cs => dropBytes (n + 1 - c.utf8Size) cs

@[simp] theorem takeBytes_append_dropBytes (n : Nat) (cs : List Char) :
    takeBytes n cs ++ dropBytes n cs = cs := by
  induction cs generalizing n with
  | nil => cases n <;> rfl
  | cons c cs ih => cases n <;> simp [takeBytes, dropBytes, ih]

@[simp] theorem width_append (a b : List Char) : width (a ++ b) = width a + width b := by
  induction a with
  | nil => simp [width]
  | cons c a ih => simp [width, ih, Nat.add_assoc]

/-- A half open range of byte positions. -/
structure Span where
  start : Nat
  stop : Nat
deriving DecidableEq, Repr, Inhabited

namespace Span

def contains (s : Span) (n : Nat) : Bool := decide (s.start ≤ n ∧ n < s.stop)

def length (s : Span) : Nat := s.stop - s.start

def slice (s : Span) (cs : List Char) : List Char := takeBytes s.length (dropBytes s.start cs)

end Span

end MigrationAudit.Text
