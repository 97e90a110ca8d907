import MigrationAudit.Coverage.Report
import MigrationAudit.Decimal.Layout
import MigrationAudit.Facts.Exchange

/-!
# Reports as trees

The wording of what a comparison finds, and the form in which reports are exchanged.
-/

namespace MigrationAudit

open Json

/-- The written form of a signal; a similarity has two decimals. -/
def Signal.text : Signal Float → String
  | exactName => "exact_name"
  | normalizedName => "normalized_name"
  | similarName ratio => s!"similar_name({Decimal.fixed 2 ratio})"
  | paramCount => "param_count"
  | paramCountNear => "param_count_near"
  | returnType => "return_type"

def Discrepancy.text : Discrepancy → String
  | renamed source target => s!"renamed: {source} -> {target}"
  | parameters source target => s!"parameters: {source} -> {target}"
  | returnType source target => s!"return type: {source} -> {target}"

namespace Candidate

def signalTexts (c : Candidate Float) : List String := c.signals.map Signal.text

def noteTexts (c : Candidate Float) : List String := c.notes.map Discrepancy.text

def toJson (c : Candidate Float) : Json :=
  .obj [("target", .str c.target.name), ("unit", .str c.target.unit),
    ("confidence", .real c.confidence), ("signals", ofStrings c.signalTexts),
    ("notes", ofStrings c.noteTexts)]

/-- The tree of a candidate that was too weak. -/
def toRejectedJson (c : Candidate Float) : Json :=
  .obj [("target", .str c.target.name), ("target_unit", .str c.target.unit),
    ("confidence", .real c.confidence)]

end Candidate

def CategoryCoverage.toJson (c : CategoryCoverage Float) : Json :=
  .obj [("category", ofTag c.category), ("source_count", .nat c.sourceCount),
    ("target_count", .nat c.targetCount), ("matched", .nat c.matched),
    ("coverage", .real c.coverage), ("status", ofTag c.status)]

def Edge.toJson (e : Edge Float) : Json :=
  .obj [("category", ofTag e.category), ("source", .str e.source.name),
    ("source_unit", .str e.source.unit), ("target", .str e.candidate.target.name),
    ("target_unit", .str e.candidate.target.unit), ("confidence", .real e.candidate.confidence),
    ("signals", ofStrings e.candidate.signalTexts), ("notes", ofStrings e.candidate.noteTexts)]

def Gap.toJson (g : Gap Float) : Json :=
  .obj ([("category", ofTag g.category), ("name", .str g.source.name), ("unit", .str g.source.unit)] ++
    present "best_candidate" Candidate.toRejectedJson g.best)

namespace TargetSummary

def toJson (t : TargetSummary) : Json :=
  .obj [("classes", .nat t.classes), ("routines", .nat t.routines), ("endpoints", .nat t.endpoints),
    ("controllers", .nat t.controllers), ("services", .nat t.services),
    ("repositories", .nat t.repositories), ("entities", .nat t.entities),
    ("configurations", .nat t.configurations), ("components", .nat t.components)]

def ofJson? (j : Json) : Option TargetSummary := do
  let j := j.record
    ["classes", "routines", "endpoints", "controllers", "services", "repositories", "entities",
      "configurations", "components"]
  some
    { classes := ← j.field? "classes" asNat64?
      routines := ← j.field? "routines" asNat64?
      endpoints := ← j.field? "endpoints" asNat64?
      controllers := ← j.field? "controllers" asNat64?
      services := ← j.field? "services" asNat64?
      repositories := ← j.field? "repositories" asNat64?
      entities := ← j.field? "entities" asNat64?
      configurations := ← j.field? "configurations" asNat64?
      components := ← j.field? "components" asNat64? }

end TargetSummary

namespace Finding

def message (f : Finding Float) : String :=
  match f with
  | coverage overall threshold =>
    let outcome := if f.verdict = .pass then "meets" else "is below"
    s!"overall coverage {Decimal.fixed 2 overall}% {outcome} the {Decimal.fixed 2 threshold}% threshold"
  | controllers count =>
    if f.verdict = .pass then s!"{count} controller(s) replace the source forms"
    else "source has forms but the target has no controllers; the MVC web layer is missing"
  | persistence entities repositories =>
    let counts := s!"{entities} entit(ies) and {repositories} repositor(ies)"
    if f.verdict = .pass then s!"{counts} replace the source data access"
    else s!"source accesses a database but the target has {counts}"

def toJson (f : Finding Float) : Json :=
  .obj [("rule", .str f.rule), ("status", ofTag f.verdict), ("message", .str f.message)]

end Finding

namespace Recommendation

/-- The field that a recommendation belongs to. -/
def category {α : Type} : Recommendation α → String
  | fixFailures _ => "validation"
  | reviewGaps .. => "completeness"

def advice {α : Type} : Recommendation α → String
  | fixFailures _ => "Fix the failed validations before sign-off"
  | reviewGaps .. => "Review the unmatched source entities and migrate missing behavior"

def rationale : Recommendation Float → String
  | fixFailures count => s!"{count} validation(s) failed"
  | reviewGaps overall gaps =>
    s!"overall coverage {Decimal.fixed 1 overall}% with {gaps} unmatched entit(ies)"

def toJson (r : Recommendation Float) : Json :=
  .obj [("priority", ofTag r.priority), ("category", .str r.category),
    ("recommendation", .str r.advice), ("rationale", .str r.rationale)]

end Recommendation

def CoverageReport.toJson (r : CoverageReport Float) : Json :=
  .obj [("schema_version", .nat r.schemaVersion),
    ("categories", ofList CategoryCoverage.toJson r.categories),
    ("overall_coverage", .real r.overallCoverage), ("coverage_status", ofTag r.status),
    ("edges", ofList Edge.toJson r.edges), ("gaps", ofList Gap.toJson r.gaps),
    ("validations", ofList Finding.toJson r.findings), ("status", ofTag r.verdict),
    ("target_summary", r.targetSummary.toJson),
    ("recommendations", ofList Recommendation.toJson r.recommendations)]

end MigrationAudit
