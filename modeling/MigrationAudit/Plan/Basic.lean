import MigrationAudit.Facts.Project
import MigrationAudit.Plan.Phase

/-!
# Plans

A plan lists the components of a project in the order of their identifiers, spreads them over the
phases and adds up their effort. Its summary says how many components of each kind and complexity
there are, which ones come first, and what makes the migration risky.
-/

namespace MigrationAudit

/-! ## Summaries -/

inductive ComplexityLevel
  | low
  | medium
  | high
deriving DecidableEq, Repr

instance : Tagged ComplexityLevel where
  all := [.low, .medium, .high]
  tag
    | .low => "low"
    | .medium => "medium"
    | .high => "high"

variable {α : Type} [Scalar α]

/-- The level of an average complexity: low up to 2, medium up to 3.5. -/
def ComplexityLevel.ofAverage (average : α) : ComplexityLevel :=
  if average ≤ Scalar.ofNat 2 then .low
  else if average ≤ Scalar.ratio 7 2 then .medium
  else .high

structure PlanSummary (α : Type) where
  componentCount : Nat
  averageComplexity : α
  level : ComplexityLevel
  complexityCounts : List (Nat × Nat)
  kindCounts : List (TargetKind × Nat)
  priority : List String
  riskFactors : List String
deriving DecidableEq, Repr

/-- The order of components by falling complexity, then by identifier. -/
def Component.compareByPriority : Component → Component → Ordering :=
  compareLex (compareOn fun c => -(c.complexity : Int)) (compareOn (·.id))

namespace PlanSummary

def countComplexities (components : List Component) : List (Nat × Nat) :=
  [1, 2, 3, 4, 5].map fun n => (n, components.countP (·.complexity == n))

/-- The number of components of each kind that occurs, in the order of the names of the kinds. -/
def countKinds (components : List Component) : List (TargetKind × Nat) :=
  (TargetKind.byName.map fun k => (k, components.countP (·.targetKind == k))).filter (·.2 != 0)

/-- The mean complexity to two decimals; zero when there are no components. -/
def average (components : List Component) : α :=
  if components.isEmpty then Scalar.ofNat 0
  else Scalar.roundTo 100 (Scalar.ratio (totalOf (·.complexity) components) components.length)

/-- A sentence about a number that is not zero. -/
def riskOf (n : Nat) (text : String) : List String := if n = 0 then [] else [s!"{n} {text}"]

def risks (components : List Component) (p : Project) (s : PlanningSettings α) : List String :=
  riskOf (components.countP (·.complexity == 5)) "component(s) at maximum complexity (5)" ++
    riskOf (components.countP fun c => s.highComplexity ≤ c.complexity)
      s!"high-complexity component(s) (>= {s.highComplexity})" ++
    riskOf (totalOf (fun u => u.dataOps.countP (·.kind.isSql)) p.units)
      "embedded SQL statement(s) must move into repositories" ++
    riskOf p.diagnostics.length "diagnostic(s): some input was only partially analyzed"

def ofComponents (components : List Component) (p : Project) (s : PlanningSettings α) :
    PlanSummary α :=
  { componentCount := components.length
    averageComplexity := average components
    level := .ofAverage (average components : α)
    complexityCounts := countComplexities components
    kindCounts := countKinds components
    priority := ((sortBy Component.compareByPriority components).take 10).map (·.id)
    riskFactors := risks components p s }

end PlanSummary

/-! ## Plans -/

structure Plan (α : Type) where
  schemaVersion : Nat
  components : List Component
  phases : List (Phase α)
  summary : PlanSummary α
  totalEffortWeeks : α
  totalDurationWeeks : α
deriving DecidableEq, Repr

namespace Plan

variable {α : Type} [Scalar α]

/-- The version of the form in which plans are exchanged. -/
def currentVersion : Nat := 1

/-- The plan of some components of a project, which are in their final order. -/
def ofComponents (components : List Component) (p : Project) (s : PlanningSettings α) : Plan α :=
  let phases := Phase.schedule s components
  { schemaVersion := currentVersion
    components
    phases
    summary := .ofComponents components p s
    totalEffortWeeks := s.effort.total components
    totalDurationWeeks := Scalar.sum (phases.map (·.durationWeeks)) }

def derive (p : Project) (s : PlanningSettings α) : Except FactsFault (Plan α) :=
  match p.fault? with
  | some fault => .error fault
  | none => .ok (ofComponents (sortBy (compareOn (·.id)) (Component.ofProject p s)) p s)

end Plan

end MigrationAudit
