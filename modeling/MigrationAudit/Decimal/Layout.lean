import MigrationAudit.Decimal.Binary

/-!
# Decimal text

Among the decimals that read back as a given double, the ones with the fewest digits are found on
the coarsest decimal grid that has a point among them; of these the nearest to the double is taken.
Digits are laid out around a decimal point, with or without an exponent, and with a fixed number of
decimals.
-/

namespace MigrationAudit.Decimal

/-! ## Shortest form -/

/-- The decimal `digits * 10 ^ exponent`. -/
structure Scientific where
  digits : Nat
  exponent : Int
deriving DecidableEq, Repr

/-- The numbers that round to a double, as fractions over one denominator. -/
structure Neighbourhood where
  value : Nat
  low : Nat
  high : Nat
  unit : Nat
  closed : Bool

/-- The numbers that round to the double of magnitude `b`; its ends belong to them when the mantissa
is even. -/
def Neighbourhood.of (b : Binary) : Neighbourhood :=
  let unit := 4 * b.denominator
  let step := Nat.pow 2 b.exponent.toNat
  { value := 4 * b.numerator
    low := 4 * b.numerator - (if b.isLowestOfBinade then step else 2 * step)
    high := 4 * b.numerator + 2 * step
    unit
    closed := b.mantissa % 2 == 0 }

namespace Neighbourhood

/-- Whether `k * grid` rounds to the double, where `grid` is the fraction `up / down`. -/
def admits (n : Neighbourhood) (up down k : Nat) : Bool :=
  let point := k * up * n.unit
  if n.closed then n.low * down ≤ point && point ≤ n.high * down
  else n.low * down < point && point < n.high * down

/-- The multiple of the grid `up / down` nearest to the double among the two next to it that
round to it. -/
def nearestOn? (n : Neighbourhood) (up down : Nat) : Option Nat :=
  let below := n.value * down / (up * n.unit)
  -- The distances to the two multiples, over one denominator.
  let left := n.value * down - below * up * n.unit
  let right := up * n.unit - left
  let lowFirst := left < right || (left == right && below % 2 == 0)
  match below != 0 && n.admits up down below, n.admits up down (below + 1) with
  | true, true => some (if lowFirst then below else below + 1)
  | true, false => some below
  | false, true => some (below + 1)
  | false, false => none

/-- The first of the grids `10 ^ e`, `10 ^ (e - 1)`, … with a point that rounds to the double. -/
def search (n : Neighbourhood) : Nat → Int → Scientific
  | 0, e => ⟨n.value, e⟩
  | steps + 1, e =>
    match n.nearestOn? (Nat.pow 10 e.toNat) (Nat.pow 10 (-e).toNat) with
    | some k => ⟨k, e⟩
    | none => n.search steps (e - 1)

end Neighbourhood

def exponentBound (b : Binary) : Int :=
  ((Nat.log2 b.numerator : Int) - Nat.log2 b.denominator + 1) * 30103 / 100000 + 1

/-- The shortest decimal that reads back as a double of magnitude `b`. -/
def shortest (b : Binary) : Scientific :=
  if b.mantissa == 0 then ⟨0, 0⟩ else (Neighbourhood.of b).search 40 (exponentBound b)

/-! ## Layout -/

def digitsOf (n : Nat) : List Char := Nat.toDigits 10 n

/-- Digits with the decimal point after the first `point` of them; zeros fill the gaps, and a whole
number ends in `tail`. -/
def positional (ds : List Char) (point : Int) (tail : List Char) : List Char :=
  if point ≤ 0 then ['0', '.'] ++ List.replicate (-point).toNat '0' ++ ds
  else if ds.length ≤ point.toNat then
    ds ++ List.replicate (point.toNat - ds.length) '0' ++ tail
  else ds.take point.toNat ++ '.' :: ds.drop point.toNat

/-- Digits with the point behind the first one and a signed exponent. -/
def exponential (ds : List Char) (point : Int) : List Char :=
  let mantissa := ds.take 1 ++ (if ds.length ≤ 1 then [] else '.' :: ds.drop 1)
  let e := point - 1
  mantissa ++ ['e', if e < 0 then '-' else '+'] ++ digitsOf e.natAbs

/-- The number of digits before the decimal point. -/
def Scientific.point (s : Scientific) : Int := (digitsOf s.digits).length + s.exponent

def Scientific.significant (s : Scientific) : List Char :=
  let ds := digitsOf s.digits
  match (ds.reverse.dropWhile (· == '0')).reverse with
  | [] => ds
  | ds => ds

/-- The shortest decimal text that reads back and shows that the number need not be whole:
positional from 0.00001 up to below 10^16, with an exponent elsewhere. Zero has no sign, and what is
not a finite number has no text. -/
def interchange? (x : Float) : Option String :=
  match Reading.ofFloat x with
  | .finite negative b =>
    let s := shortest b
    let sign := if negative && b.mantissa != 0 then ['-'] else []
    let body :=
      if b.mantissa == 0 then ['0', '.', '0']
      else if -5 < s.point && s.point ≤ 16 then positional s.significant s.point ['.', '0']
      else exponential s.significant s.point
    some (String.ofList (sign ++ body))
  | _ => none

/-- The shortest decimal text that reads back, without an exponent. -/
def plain (x : Float) : String :=
  match Reading.ofFloat x with
  | .notANumber => "NaN"
  | .infinite negative => if negative then "-inf" else "inf"
  | .finite negative b =>
    let s := shortest b
    let body := if b.mantissa == 0 then ['0'] else positional s.significant s.point []
    String.ofList ((if negative then ['-'] else []) ++ body)

/-- The text with exactly `places` decimals; a half goes to the even neighbour. -/
def fixed (places : Nat) (x : Float) : String :=
  match Reading.ofFloat x with
  | .notANumber => "NaN"
  | .infinite negative => if negative then "-inf" else "inf"
  | .finite negative b =>
    let ds := digitsOf (roundQuotient (b.numerator * Nat.pow 10 places) b.denominator)
    let ds := List.replicate (places + 1 - ds.length) '0' ++ ds
    let body := positional ds (ds.length - places) []
    String.ofList ((if negative then ['-'] else []) ++ body)

end MigrationAudit.Decimal
