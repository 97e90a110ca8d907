import MigrationAudit.Json.Value

/-!
# Reading JSON numbers

A number without fraction and exponent is a whole number. Any other is read from the significant
digits that fit 64 bits, taken times or over a power of ten; so is a whole number that does not fit
64 bits, where a number with a fraction is wanted as well. A number beyond the range of doubles has
no value.
-/

namespace MigrationAudit.Json

/-- The first value too large for 64 bits. -/
def wordLimit : Nat := Nat.pow 2 64

/-- Whole numbers below this bound are in the range of doubles, and of all types that are read. -/
def wholeBound : Nat := Nat.pow 2 128

def digitValue (c : Char) : Nat := c.toNat - '0'.toNat

/-- Significant digits read so far: their value, and how many further digits were dropped because
the value would not fit 64 bits. -/
structure Significand where
  value : Nat
  dropped : Nat
  full : Bool

namespace Significand

/-- Takes in one more digit. Once a digit does not fit, no later one is taken. -/
def push (s : Significand) (c : Char) : Significand :=
  let v := s.value * 10 + digitValue c
  if s.full || wordLimit ≤ v then { s with dropped := s.dropped + 1, full := true }
  else { s with value := v }

end Significand

def powerOfTen (n : Nat) : Float := Float.ofScientific 1 false n

/-- A significand times a power of ten. A value beyond the range of a double is refused; one below
it is zero. -/
def scale (significand : Nat) (exponent : Int) : Option Float :=
  let f := significand.toUInt64.toFloat
  if 0 ≤ exponent then
    if 308 < exponent then (if significand == 0 then some 0.0 else none)
    else
      let g := f * powerOfTen exponent.toNat
      if g.isInf then none else some g
  else
    let n := exponent.natAbs
    if n ≤ 308 then some (f / powerOfTen n)
    else
      let g := f / powerOfTen 308
      if n ≤ 616 then some (g / powerOfTen (n - 308)) else some 0.0

def spanDigits (cs : List Char) : List Char × List Char :=
  (cs.takeWhile Char.isDigit, cs.dropWhile Char.isDigit)

/-- A natural number as a double, unless it is beyond the range of doubles. -/
def ofWhole? (n : Nat) : Option Float :=
  let s := (Nat.toDigits 10 n).foldl Significand.push ⟨0, 0, false⟩
  scale s.value s.dropped

/-- The exponent at the front of a text, behind its letter. -/
def readExponent? (cs : List Char) : Option (Int × List Char) :=
  let (negative, cs) :=
    match cs with
    | '+' :: rest => (false, rest)
    | '-' :: rest => (true, rest)
    | cs => (false, cs)
  match spanDigits cs with
  | ([], _) => none
  | (ds, rest) =>
    let n := ds.foldl (fun n c => n * 10 + digitValue c) 0
    some (if negative then -n else n, rest)

/-- Completes a number that is not whole: `value * 10 ^ exponent`, scaled by the exponent that may
follow. -/
def finishReal (negative : Bool) (value : Nat) (exponent : Int) (cs : List Char) :
    Option (Json × List Char) := do
  let (shift, rest) ←
    match cs with
    | 'e' :: r => readExponent? r
    | 'E' :: r => readExponent? r
    | r => some (0, r)
  let number := (scale value (exponent + shift)).map fun x => Json.real (if negative then -x else x)
  some (number.getD .noValue, rest)

/-- The number whose digits start at the front of a text. -/
def readMagnitude? (negative : Bool) (cs : List Char) : Option (Json × List Char) :=
  match spanDigits cs with
  | ([], _) => none
  | ('0' :: _ :: _, _) => none
  | (whole, rest) =>
    let s := whole.foldl Significand.push ⟨0, 0, false⟩
    match rest with
    | '.' :: r =>
      match spanDigits r with
      | ([], _) => none
      | (fraction, r) =>
        let before := s.dropped
        let t := fraction.foldl Significand.push { s with full := false }
        finishReal negative t.value ((before : Int) - (fraction.length - (t.dropped - before))) r
    | 'e' :: _ => finishReal negative s.value s.dropped rest
    | 'E' :: _ => finishReal negative s.value s.dropped rest
    | _ =>
      let n := whole.foldl (fun n c => n * 10 + digitValue c) 0
      if n == 0 && negative then some (.real (-0.0), rest)
      else if wholeBound ≤ n && (ofWhole? n).isNone then some (.noValue, rest)
      else some (.int (if negative then -n else n), rest)

/-- The number at the front of a text. -/
def readNumber? : List Char → Option (Json × List Char)
  | '-' :: cs => readMagnitude? true cs
  | cs => readMagnitude? false cs

end MigrationAudit.Json
