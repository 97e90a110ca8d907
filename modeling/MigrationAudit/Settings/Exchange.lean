import MigrationAudit.Facts.Exchange
import MigrationAudit.Settings.Basic

/-!
# Settings as trees

A tree of settings may be partial: a key that is missing keeps its default.
-/

namespace MigrationAudit

open Json

namespace ExtractionSettings

/-- The tree of the settings, its fields in a fixed order. -/
def toJson (s : ExtractionSettings) : Json :=
  .obj [("form_supertypes", ofStrings s.formSupertypes),
    ("data_module_supertypes", ofStrings s.dataModuleSupertypes),
    ("dataset_component_types", ofStrings s.datasetComponentTypes),
    ("dataset_methods", ofStrings s.datasetMethods),
    ("transaction_methods", ofStrings s.transactionMethods),
    ("service_filename_tokens", ofStrings s.serviceFilenameTokens),
    ("utility_filename_tokens", ofStrings s.utilityFilenameTokens),
    ("event_handler_suffixes", ofStrings s.eventHandlerSuffixes),
    ("max_nesting_depth", .nat s.maxNestingDepth)]

def ofJson? (j : Json) : Option ExtractionSettings :=
  let j := j.record (toJson {}).keys
  if !j.isObject then none
  else do
    let d : ExtractionSettings := {}
    some
      { formSupertypes := ← j.fieldD? "form_supertypes" asStrings? d.formSupertypes
        dataModuleSupertypes :=
          ← j.fieldD? "data_module_supertypes" asStrings? d.dataModuleSupertypes
        datasetComponentTypes :=
          ← j.fieldD? "dataset_component_types" asStrings? d.datasetComponentTypes
        datasetMethods := ← j.fieldD? "dataset_methods" asStrings? d.datasetMethods
        transactionMethods := ← j.fieldD? "transaction_methods" asStrings? d.transactionMethods
        serviceFilenameTokens :=
          ← j.fieldD? "service_filename_tokens" asStrings? d.serviceFilenameTokens
        utilityFilenameTokens :=
          ← j.fieldD? "utility_filename_tokens" asStrings? d.utilityFilenameTokens
        eventHandlerSuffixes :=
          ← j.fieldD? "event_handler_suffixes" asStrings? d.eventHandlerSuffixes
        maxNestingDepth := ← j.fieldD? "max_nesting_depth" asNat64? d.maxNestingDepth }

end ExtractionSettings

namespace PlanningSettings

def toJson (s : PlanningSettings Float) : Json :=
  .obj [("validation_keywords", ofStrings s.validationWords),
    ("computation_keywords", ofStrings s.computationWords),
    ("ui_event_keywords", ofStrings s.eventWords), ("data_keywords", ofStrings s.dataWords),
    ("orchestration_keywords", ofStrings s.orchestrationWords),
    ("type_prefix_chars", .str s.typeLetters), ("role_prefixes", ofStrings s.roleFronts),
    ("role_suffixes", ofStrings s.roleEnds), ("param_low_threshold", .nat s.fewParams),
    ("param_high_threshold", .nat s.manyParams), ("method_low_threshold", .nat s.fewMethods),
    ("method_high_threshold", .nat s.manyMethods), ("property_threshold", .nat s.manyProperties),
    ("complex_return_types", ofStrings s.opaqueReturnTypes),
    ("form_complexity", .nat s.formComplexity),
    ("data_module_complexity", .nat s.dataModuleComplexity),
    ("high_complexity", .nat s.highComplexity), ("effort_low_weeks", .real s.effort.low),
    ("effort_medium_weeks", .real s.effort.medium), ("effort_high_weeks", .real s.effort.high)]

def ofJson? (j : Json) : Option (PlanningSettings Float) :=
  let j := j.record (toJson .standard).keys
  if !j.isObject then none
  else do
    let d : PlanningSettings Float := .standard
    some
      { validationWords := ← j.fieldD? "validation_keywords" asStrings? d.validationWords
        computationWords := ← j.fieldD? "computation_keywords" asStrings? d.computationWords
        eventWords := ← j.fieldD? "ui_event_keywords" asStrings? d.eventWords
        dataWords := ← j.fieldD? "data_keywords" asStrings? d.dataWords
        orchestrationWords := ← j.fieldD? "orchestration_keywords" asStrings? d.orchestrationWords
        typeLetters := ← j.fieldD? "type_prefix_chars" asString? d.typeLetters
        roleFronts := ← j.fieldD? "role_prefixes" asStrings? d.roleFronts
        roleEnds := ← j.fieldD? "role_suffixes" asStrings? d.roleEnds
        fewParams := ← j.fieldD? "param_low_threshold" asNat64? d.fewParams
        manyParams := ← j.fieldD? "param_high_threshold" asNat64? d.manyParams
        fewMethods := ← j.fieldD? "method_low_threshold" asNat64? d.fewMethods
        manyMethods := ← j.fieldD? "method_high_threshold" asNat64? d.manyMethods
        manyProperties := ← j.fieldD? "property_threshold" asNat64? d.manyProperties
        opaqueReturnTypes := ← j.fieldD? "complex_return_types" asStrings? d.opaqueReturnTypes
        formComplexity := ← j.fieldD? "form_complexity" (asNat? 8) d.formComplexity
        dataModuleComplexity :=
          ← j.fieldD? "data_module_complexity" (asNat? 8) d.dataModuleComplexity
        highComplexity := ← j.fieldD? "high_complexity" (asNat? 8) d.highComplexity
        effort :=
          { low := ← j.fieldD? "effort_low_weeks" asFloat? d.effort.low
            medium := ← j.fieldD? "effort_medium_weeks" asFloat? d.effort.medium
            high := ← j.fieldD? "effort_high_weeks" asFloat? d.effort.high } }

end PlanningSettings

namespace Json

def ofTexts (texts : List (String × String)) : Json := .obj (texts.map fun (k, t) => (k, .str t))

/-- The texts that an object gives to names, in the order of the names. -/
def asTexts? : Json → Option (List (String × String))
  | .obj entries => do
    let texts ← entries.mapM fun (k, j) => j.asString?.map (k, ·)
    let keys := sortBy compare (texts.map (·.1)).eraseDups
    some (keys.map fun k => (k, (texts.reverse.lookup k).getD ""))
  | _ => none

end Json

namespace ComparisonSettings

def toJson (s : ComparisonSettings Float) : Json :=
  .obj [("similarity_floor", .real s.thresholds.similarityFloor),
    ("min_confidence", .real s.thresholds.minConfidence),
    ("coverage_threshold", .real s.thresholds.coverageThreshold),
    ("recommendation_coverage", .real s.thresholds.recommendationCoverage),
    ("normalize_prefixes", ofStrings s.routineFronts),
    ("normalize_suffixes", ofStrings s.routineEnds), ("class_prefixes", ofStrings s.classFronts),
    ("class_suffixes", ofStrings s.classEnds), ("type_equivalences", ofTexts s.typeEquivalences)]

def ofJson? (j : Json) : Option (ComparisonSettings Float) :=
  let j := j.record (toJson .standard).keys
  if !j.isObject then none
  else do
    let d : ComparisonSettings Float := .standard
    let t := d.thresholds
    some
      { thresholds :=
          { similarityFloor := ← j.fieldD? "similarity_floor" asFloat? t.similarityFloor
            minConfidence := ← j.fieldD? "min_confidence" asFloat? t.minConfidence
            coverageThreshold := ← j.fieldD? "coverage_threshold" asFloat? t.coverageThreshold
            recommendationCoverage :=
              ← j.fieldD? "recommendation_coverage" asFloat? t.recommendationCoverage }
        routineFronts := ← j.fieldD? "normalize_prefixes" asStrings? d.routineFronts
        routineEnds := ← j.fieldD? "normalize_suffixes" asStrings? d.routineEnds
        classFronts := ← j.fieldD? "class_prefixes" asStrings? d.classFronts
        classEnds := ← j.fieldD? "class_suffixes" asStrings? d.classEnds
        typeEquivalences := ← j.fieldD? "type_equivalences" asTexts? d.typeEquivalences }

end ComparisonSettings

structure AuditSettings where
  extraction : ExtractionSettings
  planning : PlanningSettings Float
  comparison : ComparisonSettings Float
deriving Repr

namespace AuditSettings

def standard : AuditSettings := ⟨{}, .standard, .standard⟩

def toJson (s : AuditSettings) : Json :=
  .obj [("extractor", s.extraction.toJson), ("mapper", s.planning.toJson),
    ("comparator", s.comparison.toJson)]

def ofJson? (j : Json) : Option AuditSettings :=
  let j := j.record (toJson .standard).keys
  if !j.isObject then none
  else do
    some
      { extraction := ← j.fieldD? "extractor" ExtractionSettings.ofJson? {}
        planning := ← j.fieldD? "mapper" PlanningSettings.ofJson? .standard
        comparison := ← j.fieldD? "comparator" ComparisonSettings.ofJson? .standard }

end AuditSettings

end MigrationAudit
