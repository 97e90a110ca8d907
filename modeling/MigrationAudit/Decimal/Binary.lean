/-!
# Binary floating-point numbers as exact numbers

A finite double is a whole number of halves, quarters, eighths and so on. Everything that is written
about it in decimal starts from this exact value. A decimal is read as the nearest double; of two
equally near ones the one with the even mantissa is taken. What lies beyond all doubles is infinite.
-/

namespace MigrationAudit.Decimal

/-- The exact magnitude `mantissa * 2 ^ exponent`. -/
structure Binary where
  mantissa : Nat
  exponent : Int
deriving DecidableEq, Repr

inductive Reading
  | notANumber
  | infinite (negative : Bool)
  | finite (negative : Bool) (magnitude : Binary)
deriving DecidableEq, Repr

/-- The leading bit of the mantissa of a double, which is not stored. -/
def leadingBit : Nat := Nat.pow 2 52

def Reading.ofFloat (x : Float) : Reading :=
  let bits := x.toBits.toNat
  let negative := bits / leadingBit / 2048 == 1
  let exponent : Nat := bits / leadingBit % 2048
  let fraction := bits % leadingBit
  if exponent == 2047 then
    if fraction == 0 then .infinite negative else .notANumber
  else if exponent == 0 then .finite negative ⟨fraction, -1074⟩
  else .finite negative ⟨leadingBit + fraction, Int.ofNat exponent - 1075⟩

namespace Binary

def numerator (b : Binary) : Nat := b.mantissa * Nat.pow 2 b.exponent.toNat

def denominator (b : Binary) : Nat := Nat.pow 2 (-b.exponent).toNat

/-- Whether the double below is only half as far away as the double above. -/
def isLowestOfBinade (b : Binary) : Bool := b.mantissa == leadingBit && b.exponent != -1074

end Binary

/-- The whole number nearest to `n / d`; of two equally near ones the even one. -/
def roundQuotient (n d : Nat) : Nat :=
  let q := n / d
  let twice := 2 * (n % d)
  if twice < d || (twice == d && q % 2 == 0) then q else q + 1

/-! ## Decimal text -/

/-- The double `m * 2 ^ e`, where `m` is at most `2 ^ 53` and `e` at least -1074. -/
def assemble (m : Nat) (e : Int) : Float :=
  -- Rounding up may have carried into a further bit.
  let (m, e) := if m = 2 * leadingBit then (leadingBit, e + 1) else (m, e)
  let bits :=
    if m < leadingBit then m
    else if 971 < e then 2047 * leadingBit
    else (e + 1075).toNat * leadingBit + (m - leadingBit)
  Float.ofBits bits.toUInt64

def nearest (n d : Nat) : Float :=
  if n = 0 then 0.0
  else
    -- The quotient has 53 bits at this exponent or at the next one.
    let guess : Int := (Nat.log2 n : Int) - Nat.log2 d - 53
    let tooSmall := 2 * leadingBit * d * Nat.pow 2 guess.toNat ≤ n * Nat.pow 2 (-guess).toNat
    let e := max (-1074) (if tooSmall then guess + 1 else guess)
    assemble (roundQuotient (n * Nat.pow 2 (-e).toNat) (d * Nat.pow 2 e.toNat)) e

def valueOf (ds : List Char) : Nat := ds.foldl (fun n c => 10 * n + (c.toNat - '0'.toNat)) 0

/-- The double nearest to a row of digits times a power of ten. Powers far beyond all doubles are
not worked out. -/
def scaled (ds : List Char) (exponent : Int) : Float :=
  match ds.dropWhile (· == '0') with
  | [] => 0.0
  | ds =>
    if 320 < ds.length + exponent then 1.0 / 0.0
    else if ds.length + exponent < -340 then 0.0
    else nearest (valueOf ds * Nat.pow 10 exponent.toNat) (Nat.pow 10 (-exponent).toNat)

def splitSign : List Char → Bool × List Char
  | '-' :: cs => (true, cs)
  | '+' :: cs => (false, cs)
  | cs => (false, cs)

def exponent? (cs : List Char) : Option Int :=
  match splitSign cs with
  | (_, []) => none
  | (negative, ds) =>
    if ds.all Char.isDigit then some (if negative then -(valueOf ds) else valueOf ds) else none

/-- The magnitude that a text stands for: digits with a point among them or at either end, and an
exponent. -/
def magnitude? (cs : List Char) : Option Float :=
  let whole := cs.takeWhile Char.isDigit
  let afterWhole := cs.dropWhile Char.isDigit
  let (fraction, rest) := match afterWhole with
    | '.' :: r => (r.takeWhile Char.isDigit, r.dropWhile Char.isDigit)
    | r => ([], r)
  let ds := whole ++ fraction
  let value (exponent : Int) := scaled ds (exponent - fraction.length)
  if ds.isEmpty then none
  else
    match rest with
    | [] => some (value 0)
    | c :: r => if c == 'e' || c == 'E' then (exponent? r).map value else none

/-- The number that a text stands for. The words for infinity and for what is no number are read in
any case. -/
def number? (cs : List Char) : Option Float :=
  let (negative, body) := splitSign cs
  let signed (x : Float) := if negative then -x else x
  let word := String.ofList (body.map Char.toLower)
  if word == "inf" || word == "infinity" then some (signed (1.0 / 0.0))
  else if word == "nan" then some (0.0 / 0.0)
  else (magnitude? body).map signed

end MigrationAudit.Decimal
