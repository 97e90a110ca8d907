import MigrationAudit.Facts.Exchange
import MigrationAudit.Plan.Basic

/-!
# Plans as trees

The form in which components, phases and plans are exchanged.
-/

namespace MigrationAudit

open Json

namespace Component

/-- The tree of a component. A table has no unit. -/
def toJson (c : Component) : Json :=
  .obj ([("id", .str c.id), ("source_name", .str c.sourceName), ("source_kind", ofTag c.sourceKind)] ++
    present "unit" .str c.unit ++
    [("target_kind", ofTag c.targetKind), ("target_name", .str c.targetName),
      ("complexity", .nat c.complexity), ("dependencies", ofStrings c.dependencies),
      ("notes", ofStrings c.notes)])

def ofJson? (j : Json) : Option Component := do
  let j := j.record
    ["id", "source_name", "source_kind", "unit", "target_kind", "target_name", "complexity",
      "dependencies", "notes"]
  some
    { id := ← j.field? "id" asString?
      sourceName := ← j.field? "source_name" asString?
      sourceKind := ← j.field? "source_kind" asTag?
      unit := ← j.optional? "unit" asString?
      targetKind := ← j.field? "target_kind" asTag?
      targetName := ← j.field? "target_name" asString?
      complexity := ← j.field? "complexity" (asNat? 8)
      dependencies := ← j.field? "dependencies" asStrings?
      notes := ← j.field? "notes" asStrings? }

end Component

def Phase.toJson (p : Phase Float) : Json :=
  .obj [("number", .nat p.number), ("name", .str p.name), ("duration_weeks", .real p.durationWeeks),
    ("effort_weeks", .real p.effortWeeks), ("deliverables", ofStrings p.deliverables),
    ("components", ofStrings p.components)]

def PlanSummary.toJson (s : PlanSummary Float) : Json :=
  .obj [("component_count", .nat s.componentCount),
    ("average_complexity", .real s.averageComplexity), ("level", ofTag s.level),
    ("complexity_distribution", ofCounts (s.complexityCounts.map fun (k, n) => (toString k, n))),
    ("kind_counts", ofCounts (s.kindCounts.map fun (k, n) => (tag k, n))),
    ("priority", ofStrings s.priority), ("risk_factors", ofStrings s.riskFactors)]

def Plan.toJson (p : Plan Float) : Json :=
  .obj [("schema_version", .nat p.schemaVersion), ("components", ofList Component.toJson p.components),
    ("phases", ofList Phase.toJson p.phases), ("summary", p.summary.toJson),
    ("total_effort_weeks", .real p.totalEffortWeeks),
    ("total_duration_weeks", .real p.totalDurationWeeks)]

end MigrationAudit
