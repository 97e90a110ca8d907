import MigrationAudit.Coverage.Entity

/-!
# Scores

The confidence that one entity is the counterpart of another one. Equal names count 50 points, equal
keys 30, and similar keys a fraction of 30; equal parameter counts add 30 and neighbouring ones 10;
return types that stand for one another add 20. Without any likeness of the names there is no score.
-/

namespace MigrationAudit

open Text

/-- What speaks for a counterpart. -/
inductive Signal (α : Type)
  | exactName
  | normalizedName
  | similarName (ratio : α)
  | paramCount
  | paramCountNear
  | returnType
deriving DecidableEq, Repr

/-- A difference between an entity and its counterpart. -/
inductive Discrepancy
  | renamed (source target : String)
  | parameters (source target : Nat)
  | returnType (source target : String)
deriving DecidableEq, Repr

/-- A counterpart with its score. -/
structure Candidate (α : Type) where
  target : Entity
  confidence : α
  signals : List (Signal α)
  notes : List Discrepancy
deriving DecidableEq, Repr

section Scalar

variable {α : Type} [Scalar α]

/-- The fraction of characters that agree place by place, of the longer text. -/
def similarity (a b : String) : α :=
  let as := a.toList
  let bs := b.toList
  if as.isEmpty || bs.isEmpty then Scalar.ofNat 0
  else Scalar.ratio ((as.zip bs).countP fun (x, y) => x == y) (max as.length bs.length)

namespace Signal

def points : Signal α → α
  | exactName => Scalar.ofNat 50
  | normalizedName => Scalar.ofNat 30
  | similarName ratio => Scalar.ofNat 30 * ratio
  | paramCount => Scalar.ofNat 30
  | paramCountNear => Scalar.ofNat 10
  | returnType => Scalar.ofNat 20

/-- The likeness of the names of two entities. -/
def ofNames? (floor : α) (source target : Entity) : Option (Signal α) :=
  if lowercase source.name = lowercase target.name then some exactName
  else if source.key ≠ "" ∧ source.key = target.key then some normalizedName
  else
    let ratio := similarity source.key target.key
    if ratio ≤ floor then none else some (similarName ratio)

def ofArities? (source target : Entity) : Option (Signal α) :=
  match source.arity, target.arity with
  | some m, some n =>
    if m = n then some paramCount
    else if m + 1 = n ∨ n + 1 = m then some paramCountNear
    else none
  | _, _ => none

def ofReturnTypes? (s : ComparisonSettings α) (source target : Entity) : Option (Signal α) :=
  match source.returnType, target.returnType with
  | some a, some b => if s.canonicalType a = s.canonicalType b then some returnType else none
  | _, _ => none

end Signal

def discrepancies (s : ComparisonSettings α) (source target : Entity) : List Discrepancy :=
  let names := if source.name = target.name then [] else [.renamed source.name target.name]
  let arities := match source.arity, target.arity with
    | some m, some n => if m = n then [] else [.parameters m n]
    | _, _ => []
  let returns := match source.returnType, target.returnType with
    | some a, some b => if s.canonicalType a = s.canonicalType b then [] else [.returnType a b]
    | _, _ => []
  names ++ arities ++ returns

def confidenceOf (points : α) : α :=
  Scalar.roundTo 10000
    (Scalar.clamp (Scalar.ofNat 0) (Scalar.ofNat 1) (points / Scalar.ofNat 100))

/-- An entity scored as the counterpart of another one, if their names are alike. -/
def score? (s : ComparisonSettings α) (source target : Entity) : Option (Candidate α) :=
  (Signal.ofNames? s.thresholds.similarityFloor source target).map fun name =>
    let signals := name :: (Signal.ofArities? source target).toList ++
      (Signal.ofReturnTypes? s source target).toList
    { target
      confidence := confidenceOf (Scalar.sum (signals.map Signal.points))
      signals
      notes := discrepancies s source target }

namespace Candidate

/-- Whether a candidate comes before another one: it has more confidence, or the same and the
smaller name, then the smaller unit. -/
def precedes (c d : Candidate α) : Bool :=
  d.confidence < c.confidence ||
    (!decide (c.confidence < d.confidence) && c.target.compare d.target == .lt)

/-- The better of two candidates; the first one when neither comes before the other. -/
def better (c d : Candidate α) : Candidate α := if d.precedes c then d else c

end Candidate

def bestCandidate? (s : ComparisonSettings α) (source : Entity) (targets : List Entity) :
    Option (Candidate α) :=
  match targets.filterMap (score? s source) with
  | [] => none
  | c :: rest => some (rest.foldl Candidate.better c)

end Scalar

end MigrationAudit
