import MigrationAudit.Coverage.Category
import MigrationAudit.Coverage.Validation
import MigrationAudit.Facts.Project

/-!
# Coverage reports

A source project is compared with its target category by category. The overall coverage is the mean
over the categories that have source entities.
-/

namespace MigrationAudit

structure CoverageReport (α : Type) where
  schemaVersion : Nat
  categories : List (CategoryCoverage α)
  overallCoverage : α
  status : CoverageStatus
  edges : List (Edge α)
  gaps : List (Gap α)
  findings : List (Finding α)
  verdict : Verdict
  targetSummary : TargetSummary
  recommendations : List (Recommendation α)
deriving DecidableEq, Repr

/-- Why two projects cannot be compared. -/
inductive CompareFault (α : Type)
  | facts (role : ProjectRole) (fault : FactsFault)
  | threshold (fault : ThresholdFault α)
  | nothingToCompare
deriving DecidableEq, Repr

namespace CoverageReport

variable {α : Type} [Scalar α]

/-- The version of the form in which reports are exchanged. -/
def currentVersion : Nat := 1

/-- The mean of the coverage of some categories, to two decimals. -/
def overallOf (categories : List (CategoryCoverage α)) : α :=
  Scalar.roundTo 100
    (Scalar.sum (categories.map (·.coverage)) / Scalar.ofNat categories.length)

def ofAudits (audits : List (CategoryAudit α)) (source target : Project) (s : ComparisonSettings α) :
    CoverageReport α :=
  let categories := audits.map (·.coverage)
  let overall := overallOf categories
  let gaps := audits.flatMap (·.gaps)
  let targetSummary := TargetSummary.ofProject target
  let findings := validate source targetSummary overall s
  let verdicts := findings.map Finding.verdict
  { schemaVersion := currentVersion
    categories
    overallCoverage := overall
    status := .ofCoverage overall
    edges := audits.flatMap (·.edges)
    gaps
    findings
    verdict := .aggregate verdicts
    targetSummary
    recommendations := recommend verdicts overall gaps.length s }

/-- Compares a source project with its target. The facts are looked at before the thresholds. -/
def compare (source target : Project) (s : ComparisonSettings α) :
    Except (CompareFault α) (CoverageReport α) := do
  if let some fault := source.fault? then throw (.facts .source fault)
  if let some fault := target.fault? then throw (.facts .target fault)
  if let some fault := s.thresholds.fault? then throw (.threshold fault)
  match Category.all.filterMap (CategoryAudit.of? s source target) with
  | [] => throw .nothingToCompare
  | audits => return ofAudits audits source target s

end CoverageReport

end MigrationAudit
