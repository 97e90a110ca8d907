import MigrationAudit.Facts.Project
import MigrationAudit.Json.Access

/-!
# Facts as trees

The form in which facts are exchanged and stored. A missing type, owner, table or the like is left
out; when it is read, missing and `null` are the same.
-/

namespace MigrationAudit

namespace Json

def ofTag {α : Type} [Tagged α] (a : α) : Json := .str (tag a)

/-- The tagged value with the name that is read, or the only key that is read, above `null`. -/
def asTag? {α : Type} [Tagged α] : Json → Option α
  | .str name => Tagged.ofTag? name
  | .obj [(name, .null)] => Tagged.ofTag? name
  | _ => none

def ofStrings (items : List String) : Json := ofList .str items

def asStrings? : Json → Option (List String) := asList? asString?

/-- A field that is left out when it has no value. -/
def present {α : Type} (key : String) (f : α → Json) : Option α → List (String × Json)
  | some a => [(key, f a)]
  | none => []

def asNat32? : Json → Option Nat := asNat? 32

def asNat64? : Json → Option Nat := asNat? 64

end Json

open Json

namespace Param

def toJson (p : Param) : Json :=
  .obj ([("name", .str p.name)] ++ present "type_name" .str p.typeName ++
    present "modifier" .str p.modifier)

def ofJson? (j : Json) : Option Param := do
  let j := j.record ["name", "type_name", "modifier"]
  some
    { name := ← j.field? "name" asString?
      typeName := ← j.optional? "type_name" asString?
      modifier := ← j.optional? "modifier" asString? }

end Param

namespace Endpoint

def toJson (e : Endpoint) : Json := .obj [("http_method", .str e.httpMethod), ("path", .str e.path)]

def ofJson? (j : Json) : Option Endpoint := do
  let j := j.record ["http_method", "path"]
  some ⟨← j.field? "http_method" asString?, ← j.field? "path" asString?⟩

end Endpoint

namespace Routine

def toJson (r : Routine) : Json :=
  .obj ([("name", .str r.name)] ++ present "owner" .str r.owner ++
    [("kind", ofTag r.kind), ("params", ofList Param.toJson r.params)] ++
    present "return_type" .str r.returnType ++ present "visibility" ofTag r.visibility ++
    [("complexity", .nat r.complexity), ("call_hints", ofStrings r.callHints),
      ("is_event_handler", .bool r.isEventHandler), ("is_class_level", .bool r.isClassLevel),
      ("has_body", .bool r.hasBody), ("directives", ofStrings r.directives),
      ("annotations", ofStrings r.annotations)] ++
    present "endpoint" Endpoint.toJson r.endpoint ++ [("line", .nat r.line)])

def ofJson? (j : Json) : Option Routine := do
  let j := j.record
    ["name", "owner", "kind", "params", "return_type", "visibility", "complexity", "call_hints",
      "is_event_handler", "is_class_level", "has_body", "directives", "annotations", "endpoint",
      "line"]
  some
    { name := ← j.field? "name" asString?
      owner := ← j.optional? "owner" asString?
      kind := ← j.field? "kind" asTag?
      params := ← j.field? "params" (asList? Param.ofJson?)
      returnType := ← j.optional? "return_type" asString?
      visibility := ← j.optional? "visibility" asTag?
      complexity := ← j.field? "complexity" asNat32?
      callHints := ← j.field? "call_hints" asStrings?
      isEventHandler := ← j.fieldD? "is_event_handler" asBool? false
      isClassLevel := ← j.fieldD? "is_class_level" asBool? false
      hasBody := ← j.fieldD? "has_body" asBool? false
      directives := ← j.fieldD? "directives" asStrings? []
      annotations := ← j.fieldD? "annotations" asStrings? []
      endpoint := ← j.optional? "endpoint" Endpoint.ofJson?
      line := ← j.field? "line" asNat32? }

end Routine

namespace Field

def toJson (f : Field) : Json :=
  .obj ([("name", .str f.name)] ++ present "type_name" .str f.typeName ++
    [("visibility", ofTag f.visibility), ("is_property", .bool f.isProperty),
      ("annotations", ofStrings f.annotations), ("line", .nat f.line)])

def ofJson? (j : Json) : Option Field := do
  let j := j.record ["name", "type_name", "visibility", "is_property", "annotations", "line"]
  some
    { name := ← j.field? "name" asString?
      typeName := ← j.optional? "type_name" asString?
      visibility := ← j.field? "visibility" asTag?
      isProperty := ← j.fieldD? "is_property" asBool? false
      annotations := ← j.fieldD? "annotations" asStrings? []
      line := ← j.field? "line" asNat32? }

end Field

namespace ClassDecl

def toJson (c : ClassDecl) : Json :=
  .obj ([("name", .str c.name)] ++ present "parent" .str c.parent ++
    [("interfaces", ofStrings c.interfaces), ("methods", ofList Routine.toJson c.methods),
      ("fields", ofList Field.toJson c.fields), ("annotations", ofStrings c.annotations)] ++
    present "stereotype" ofTag c.stereotype ++ present "table" .str c.table ++
    [("is_form_like", .bool c.isFormLike), ("is_data_module", .bool c.isDataModule),
      ("is_data_access_like", .bool c.isDataAccessLike), ("line", .nat c.line)])

def ofJson? (j : Json) : Option ClassDecl := do
  let j := j.record
    ["name", "parent", "interfaces", "methods", "fields", "annotations", "stereotype", "table",
      "is_form_like", "is_data_module", "is_data_access_like", "line"]
  some
    { name := ← j.field? "name" asString?
      parent := ← j.optional? "parent" asString?
      interfaces := ← j.fieldD? "interfaces" asStrings? []
      methods := ← j.field? "methods" (asList? Routine.ofJson?)
      fields := ← j.field? "fields" (asList? Field.ofJson?)
      annotations := ← j.fieldD? "annotations" asStrings? []
      stereotype := ← j.optional? "stereotype" asTag?
      table := ← j.optional? "table" asString?
      isFormLike := ← j.field? "is_form_like" asBool?
      isDataModule := ← j.fieldD? "is_data_module" asBool? false
      isDataAccessLike := ← j.field? "is_data_access_like" asBool?
      line := ← j.field? "line" asNat32? }

end ClassDecl

namespace DataOp

def toJson (d : DataOp) : Json :=
  .obj ([("kind", ofTag d.kind), ("raw", .str d.raw)] ++ present "table" .str d.table ++
    present "component_type" .str d.componentType ++ present "owner" .str d.owner ++
    [("line", .nat d.line)])

def ofJson? (j : Json) : Option DataOp := do
  let j := j.record ["kind", "raw", "table", "component_type", "owner", "line"]
  some
    { kind := ← j.field? "kind" asTag?
      raw := ← j.field? "raw" asString?
      table := ← j.optional? "table" asString?
      componentType := ← j.optional? "component_type" asString?
      owner := ← j.optional? "owner" asString?
      line := ← j.field? "line" asNat32? }

end DataOp

namespace Dependency

def toJson (d : Dependency) : Json := .obj [("name", .str d.name), ("scope", ofTag d.scope)]

def ofJson? (j : Json) : Option Dependency := do
  let j := j.record ["name", "scope"]
  some ⟨← j.field? "name" asString?, ← j.field? "scope" asTag?⟩

end Dependency

namespace SizeMetrics

def toJson (m : SizeMetrics) : Json :=
  .obj [("total_lines", .nat m.totalLines), ("code_lines", .nat m.codeLines),
    ("comment_lines", .nat m.commentLines), ("blank_lines", .nat m.blankLines),
    ("max_nesting_depth", .nat m.maxNestingDepth)]

def ofJson? (j : Json) : Option SizeMetrics := do
  let j := j.record
    ["total_lines", "code_lines", "comment_lines", "blank_lines", "max_nesting_depth"]
  some
    { totalLines := ← j.field? "total_lines" asNat32?
      codeLines := ← j.field? "code_lines" asNat32?
      commentLines := ← j.field? "comment_lines" asNat32?
      blankLines := ← j.field? "blank_lines" asNat32?
      maxNestingDepth := ← j.field? "max_nesting_depth" asNat32? }

end SizeMetrics

namespace Diagnostic

def toJson (d : Diagnostic) : Json :=
  .obj ([("path", .str d.path), ("kind", ofTag d.kind), ("reason", .str d.reason)] ++
    present "line" .nat d.line)

def ofJson? (j : Json) : Option Diagnostic := do
  let j := j.record ["path", "kind", "reason", "line"]
  some
    { path := ← j.field? "path" asString?
      kind := ← j.field? "kind" asTag?
      reason := ← j.field? "reason" asString?
      line := ← j.optional? "line" asNat32? }

end Diagnostic

namespace SourceUnit

def toJson (u : SourceUnit) : Json :=
  .obj [("name", .str u.name), ("path", .str u.path), ("language", ofTag u.language),
    ("kind", ofTag u.kind), ("classes", ofList ClassDecl.toJson u.classes),
    ("routines", ofList Routine.toJson u.routines),
    ("dependencies", ofList Dependency.toJson u.dependencies),
    ("database_ops", ofList DataOp.toJson u.dataOps), ("metrics", u.metrics.toJson),
    ("diagnostics", ofList Diagnostic.toJson u.diagnostics)]

def ofJson? (j : Json) : Option SourceUnit := do
  let j := j.record
    ["name", "path", "language", "kind", "classes", "routines", "dependencies", "database_ops",
      "metrics", "diagnostics"]
  some
    { name := ← j.field? "name" asString?
      path := ← j.field? "path" asString?
      language := ← j.field? "language" asTag?
      kind := ← j.field? "kind" asTag?
      classes := ← j.field? "classes" (asList? ClassDecl.ofJson?)
      routines := ← j.field? "routines" (asList? Routine.ofJson?)
      dependencies := ← j.field? "dependencies" (asList? Dependency.ofJson?)
      dataOps := ← j.field? "database_ops" (asList? DataOp.ofJson?)
      metrics := ← j.field? "metrics" SizeMetrics.ofJson?
      diagnostics := ← j.field? "diagnostics" (asList? Diagnostic.ofJson?) }

end SourceUnit

namespace KindCounts

def toJson (k : KindCounts) : Json :=
  .obj [("form", .nat k.form), ("data_module", .nat k.dataModule), ("service", .nat k.service),
    ("utility", .nat k.utility), ("plain_unit", .nat k.plainUnit), ("unknown", .nat k.unknown)]

def ofJson? (j : Json) : Option KindCounts := do
  let j := j.record ["form", "data_module", "service", "utility", "plain_unit", "unknown"]
  some
    { form := ← j.field? "form" asNat64?
      dataModule := ← j.field? "data_module" asNat64?
      service := ← j.field? "service" asNat64?
      utility := ← j.field? "utility" asNat64?
      plainUnit := ← j.field? "plain_unit" asNat64?
      unknown := ← j.field? "unknown" asNat64? }

end KindCounts

namespace Json

/-- An object that gives numbers to names. -/
def ofCounts (counts : List (String × Nat)) : Json := .obj (counts.map fun (k, n) => (k, .nat n))

/-- The numbers that an object gives to names, in the order of the names. -/
def asCounts? : Json → Option (List (String × Nat))
  | .obj entries => do
    let counts ← entries.mapM fun (k, j) => j.asNat64?.map (k, ·)
    let keys := sortBy compare (counts.map (·.1)).eraseDups
    some (keys.map fun k => (k, (counts.reverse.lookup k).getD 0))
  | _ => none

end Json

namespace Summary

def toJson (s : Summary) : Json :=
  .obj [("unit_count", .nat s.unitCount), ("units_by_kind", s.unitsByKind.toJson),
    ("class_count", .nat s.classCount), ("routine_count", .nat s.routineCount),
    ("field_count", .nat s.fieldCount), ("database_op_count", .nat s.dataOpCount),
    ("total_lines", .nat s.totalLines), ("code_lines", .nat s.codeLines),
    ("technologies", ofStrings s.technologies), ("stereotypes", ofCounts s.stereotypes)]

def ofJson? (j : Json) : Option Summary := do
  let j := j.record
    ["unit_count", "units_by_kind", "class_count", "routine_count", "field_count",
      "database_op_count", "total_lines", "code_lines", "technologies", "stereotypes"]
  some
    { unitCount := ← j.field? "unit_count" asNat64?
      unitsByKind := ← j.field? "units_by_kind" KindCounts.ofJson?
      classCount := ← j.field? "class_count" asNat64?
      routineCount := ← j.field? "routine_count" asNat64?
      fieldCount := ← j.field? "field_count" asNat64?
      dataOpCount := ← j.field? "database_op_count" asNat64?
      totalLines := ← j.field? "total_lines" asNat64?
      codeLines := ← j.field? "code_lines" asNat64?
      technologies := ← j.field? "technologies" asStrings?
      stereotypes := ← j.field? "stereotypes" asCounts? }

end Summary

namespace Project

def toJson (p : Project) : Json :=
  .obj [("schema_version", .nat p.schemaVersion), ("units", ofList SourceUnit.toJson p.units),
    ("summary", p.summary.toJson), ("diagnostics", ofList Diagnostic.toJson p.diagnostics)]

def ofJson? (j : Json) : Option Project := do
  let j := j.record ["schema_version", "units", "summary", "diagnostics"]
  some
    { schemaVersion := ← j.field? "schema_version" asNat32?
      units := ← j.field? "units" (asList? SourceUnit.ofJson?)
      summary := ← j.field? "summary" Summary.ofJson?
      diagnostics := ← j.field? "diagnostics" (asList? Diagnostic.ofJson?) }

end Project

end MigrationAudit
