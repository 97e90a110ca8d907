import MigrationAudit.Proofs.Settings.Ranges
import MigrationAudit.Settings.Layers

/-!
# Which layer a setting comes from

The command line wins over the environment, the environment over the file and the file over the
defaults, for three of the thresholds. All other settings are those of the file, or the defaults
when there is no file. Every layer has to be readable, even where a later one wins, but only what is
in force in the end has to be in range.
-/

namespace MigrationAudit

/-! ## Fields with defaults -/

theorem bind_eq_ok_iff {ε α β : Type} {x : Except ε α} {f : α → Except ε β} {z : β} :
    (x >>= f) = .ok z ↔ ∃ y, x = .ok y ∧ f y = .ok z := by
  cases x <;> simp [bind, Except.bind]

namespace Json

/-- The value under a key of a record, whose values may also be listed without their names. -/
def recorded? (names : List String) (j : Json) (key : String) : Option Json :=
  ((j.record names).valuesOf key).head?

theorem fieldD?_cases {α : Type} {names : List String} {j : Json} {key : String}
    {f : Json → Option α} {default x : α} (h : (j.record names).fieldD? key f default = some x) :
    (j.recorded? names key = none ∧ x = default) ∨
      ∃ v, j.recorded? names key = some v ∧ f v = some x := by
  unfold fieldD? at h
  unfold recorded?
  split at h
  next hnone =>
    rw [hnone]
    exact .inl ⟨rfl, (Option.some.inj h).symm⟩
  next v hone =>
    rw [hone]
    exact .inr ⟨v, rfl, h⟩
  next => cases h

theorem eq_of_fieldD? {α : Type} {names : List String} {j : Json} {key : String}
    {f : Json → Option α} {default x : α} (h : (j.record names).fieldD? key f default = some x) :
    x = ((j.recorded? names key).bind f).getD default := by
  obtain ⟨hnone, rfl⟩ | ⟨v, hv, hx⟩ := fieldD?_cases h
  · rw [hnone, Option.bind_none, Option.getD_none]
  · rw [hv, Option.bind_some, hx, Option.getD_some]

end Json

/-- Thresholds that are looked up by their keys, or else standard. -/
def Thresholds.lookedUp (lookup : String → Option Float) : Thresholds Float :=
  let d : Thresholds Float := .standard
  { similarityFloor := (lookup "similarity_floor").getD d.similarityFloor
    minConfidence := (lookup "min_confidence").getD d.minConfidence
    coverageThreshold := (lookup "coverage_threshold").getD d.coverageThreshold
    recommendationCoverage := (lookup "recommendation_coverage").getD d.recommendationCoverage }

theorem ComparisonSettings.thresholds_of_ofJson? {j : Json} {s : ComparisonSettings Float}
    (h : ofJson? j = some s) :
    s.thresholds =
      .lookedUp fun key => (j.recorded? (toJson .standard).keys key).bind Json.asFloat? := by
  unfold ofJson? at h
  simp only at h
  split at h
  next => cases h
  next =>
    simp only [Option.bind_eq_bind, Option.bind_eq_some_iff, Option.some.injEq] at h
    obtain ⟨w, hw, x, hx, y, hy, z, hz, -, -, -, -, -, -, -, -, -, -, rfl⟩ := h
    rw [Json.eq_of_fieldD? hw, Json.eq_of_fieldD? hx, Json.eq_of_fieldD? hy, Json.eq_of_fieldD? hz]
    rfl

theorem AuditSettings.comparison_of_ofJson? {j : Json} {s : AuditSettings}
    (h : ofJson? j = some s) :
    (j.recorded? (toJson .standard).keys "comparator" = none ∧ s.comparison = .standard) ∨
      ∃ v, j.recorded? (toJson .standard).keys "comparator" = some v ∧
        ComparisonSettings.ofJson? v = some s.comparison := by
  unfold ofJson? at h
  simp only at h
  split at h
  next => cases h
  next =>
    simp only [Option.bind_eq_bind, Option.bind_eq_some_iff, Option.some.injEq] at h
    obtain ⟨-, -, -, -, comparison, hcomparison, rfl⟩ := h
    exact Json.fieldD?_cases hcomparison

/-! ## Files -/

namespace SettingsFile

variable {f : SettingsFile} {base : AuditSettings}

/-- A file can be read, and its text decodes to some settings. -/
def Holds (f : SettingsFile) (base : AuditSettings) : Prop :=
  ∃ text tree, f.text = .ok text ∧ Json.tree? text = some tree ∧
    AuditSettings.ofJson? tree = some base

/-- The threshold under a key of a file, if the file has the key. -/
def threshold? (f : SettingsFile) (key : String) : Option Float := do
  let tree ← Json.tree? (← f.text.toOption)
  let comparison ← tree.recorded? (AuditSettings.toJson .standard).keys "comparator"
  let value ← comparison.recorded? (ComparisonSettings.toJson .standard).keys key
  value.asFloat?

theorem read_eq_ok_iff : f.read = .ok base ↔ f.Holds base := by
  unfold read Holds
  cases f.text with
  | error reason => simp
  | ok text =>
    cases htree : Json.tree? text with
    | none => simp [htree]
    | some tree => cases hbase : AuditSettings.ofJson? tree <;> simp [htree, hbase]

theorem Holds.thresholds_eq (h : f.Holds base) :
    base.comparison.thresholds = .lookedUp f.threshold? := by
  obtain ⟨text, tree, htext, htree, hbase⟩ := h
  have hlookup (key : String) : f.threshold? key =
      (tree.recorded? (AuditSettings.toJson .standard).keys "comparator").bind fun j =>
        (j.recorded? (ComparisonSettings.toJson .standard).keys key).bind Json.asFloat? := by
    rw [threshold?, htext]
    exact congrArg (Option.bind · _) htree
  rw [funext hlookup]
  obtain ⟨hnone, hstandard⟩ | ⟨v, hv, hcomparison⟩ := AuditSettings.comparison_of_ofJson? hbase
  · rw [hnone, hstandard]
    rfl
  · rw [hv]
    exact ComparisonSettings.thresholds_of_ofJson? hcomparison

end SettingsFile

/-- The settings of the file, or the defaults when there is none. -/
def BaseSettings (file : Option SettingsFile) (base : AuditSettings) : Prop :=
  match file with
  | none => base = .standard
  | some f => f.Holds base

theorem BaseSettings.thresholds_eq {file : Option SettingsFile} {base : AuditSettings}
    (h : BaseSettings file base) :
    base.comparison.thresholds = .lookedUp fun key => file.bind (·.threshold? key) := by
  cases file with
  | none =>
    obtain rfl : base = .standard := h
    rfl
  | some f => exact SettingsFile.Holds.thresholds_eq h

/-! ## The environment -/

/-- The number in a variable of the environment, if it is set and holds one. -/
def numberOf? (environment : String → Option String) (name : String) : Option Float :=
  (environment name).bind fun text => Decimal.number? (Text.trim text.toList)

/-- A variable of the environment is not set, or holds a number. -/
def IsNumeric (environment : String → Option String) (name : String) : Prop :=
  ∀ text, environment name = some text → (Decimal.number? (Text.trim text.toList)).isSome

theorem numberIn_eq_ok_iff {environment : String → Option String} {name : String}
    {value : Option Float} :
    numberIn environment name = .ok value ↔
      IsNumeric environment name ∧ value = numberOf? environment name := by
  unfold numberIn numberOf? IsNumeric
  cases environment name with
  | none => simp [@eq_comm _ none]
  | some text =>
    cases hnumber : Decimal.number? (Text.trim text.toList) with
    | none => simp [hnumber]
    | some x => simp [hnumber, @eq_comm _ (some x)]

namespace ThresholdOverrides

def variableNames : List String :=
  ["MODERNIZE_COVERAGE_THRESHOLD", "MODERNIZE_MIN_CONFIDENCE", "MODERNIZE_SIMILARITY_FLOOR"]

def numbersOf (environment : String → Option String) : ThresholdOverrides :=
  { coverageThreshold := numberOf? environment "MODERNIZE_COVERAGE_THRESHOLD"
    minConfidence := numberOf? environment "MODERNIZE_MIN_CONFIDENCE"
    similarityFloor := numberOf? environment "MODERNIZE_SIMILARITY_FLOOR" }

theorem ofEnvironment_eq_ok_iff {environment : String → Option String} {o : ThresholdOverrides} :
    ofEnvironment environment = .ok o ↔
      (∀ name ∈ variableNames, IsNumeric environment name) ∧ o = numbersOf environment := by
  unfold ofEnvironment
  simp only [bind_eq_ok_iff, numberIn_eq_ok_iff, variableNames, List.forall_mem_cons]
  constructor
  · rintro ⟨_, ⟨hcoverage, rfl⟩, _, ⟨hconfidence, rfl⟩, _, ⟨hfloor, rfl⟩, heq⟩
    exact ⟨⟨hcoverage, hconfidence, hfloor, List.forall_mem_nil _⟩, (Except.ok.inj heq).symm⟩
  · rintro ⟨⟨hcoverage, hconfidence, hfloor, -⟩, rfl⟩
    exact ⟨_, ⟨hcoverage, rfl⟩, _, ⟨hconfidence, rfl⟩, _, ⟨hfloor, rfl⟩, rfl⟩

end ThresholdOverrides

/-! ## What is in force -/

/-- A threshold with the layer that it comes from: the command line, or else the environment, or
else the file, or else the defaults. A file without the key stands for the default. -/
def Layered.inForce (given fromEnvironment : Option Float) (file : Option SettingsFile)
    (key : String) (default : Float) : Layered :=
  match given, fromEnvironment, file with
  | some x, _, _ => ⟨x, .commandLine⟩
  | none, some x, _ => ⟨x, .environment⟩
  | none, none, some f => ⟨(f.threshold? key).getD default, .file⟩
  | none, none, none => ⟨default, .standard⟩

def baseLayer : Option SettingsFile → SettingLayer
  | none => .standard
  | some _ => .file

theorem Layered.under_under (given fromEnvironment : Option Float) (file : Option SettingsFile)
    (key : String) (default : Float) :
    (Layered.under ⟨(file.bind (·.threshold? key)).getD default, baseLayer file⟩ .environment
        fromEnvironment).under .commandLine given =
      inForce given fromEnvironment file key default := by
  cases given <;> cases fromEnvironment <;> cases file <;> rfl

namespace LayeredSettings

variable (file : Option SettingsFile) (environment : String → Option String)
  (commandLine : ThresholdOverrides)

/-- One of the thresholds that the environment and the command line may give. -/
def thresholdInForce (given : ThresholdOverrides → Option Float) (key : String) (default : Float) :
    Layered :=
  .inForce (given commandLine) (given (.numbersOf environment)) file key default

/-- The settings in force over those of the file or the defaults. -/
def inForce (base : AuditSettings) : LayeredSettings :=
  let inForce := thresholdInForce file environment commandLine
  let d : Thresholds Float := .standard
  { base
    coverageThreshold := inForce (·.coverageThreshold) "coverage_threshold" d.coverageThreshold
    minConfidence := inForce (·.minConfidence) "min_confidence" d.minConfidence
    similarityFloor := inForce (·.similarityFloor) "similarity_floor" d.similarityFloor }

/-- The thresholds in force. The coverage of recommendations is that of the file or the default. -/
def thresholdsInForce : Thresholds Float :=
  let inForce := thresholdInForce file environment commandLine
  let d : Thresholds Float := .standard
  { coverageThreshold :=
      (inForce (·.coverageThreshold) "coverage_threshold" d.coverageThreshold).value
    minConfidence := (inForce (·.minConfidence) "min_confidence" d.minConfidence).value
    similarityFloor := (inForce (·.similarityFloor) "similarity_floor" d.similarityFloor).value
    recommendationCoverage :=
      (file.bind (·.threshold? "recommendation_coverage")).getD d.recommendationCoverage }

variable {file environment commandLine}

theorem under_under {base : AuditSettings} (h : BaseSettings file base) :
    ((ofLayer (baseLayer file) base).under .environment (.numbersOf environment)).under .commandLine
      commandLine = inForce file environment commandLine base := by
  simp only [ofLayer, under, h.thresholds_eq, Thresholds.lookedUp, Layered.under_under, inForce,
    thresholdInForce]

theorem effective_inForce {base : AuditSettings} (h : BaseSettings file base) :
    (inForce file environment commandLine base).effective =
      { base with comparison :=
          { base.comparison with
            thresholds := thresholdsInForce file environment commandLine } } := by
  let r := inForce file environment commandLine base
  have hthresholds : r.effective.comparison.thresholds =
      thresholdsInForce file environment commandLine := by
    have hrecommendation : base.comparison.thresholds.recommendationCoverage =
        (thresholdsInForce file environment commandLine).recommendationCoverage := by
      rw [h.thresholds_eq]
      rfl
    exact congrArg (Thresholds.mk _ _ _) hrecommendation
  calc r.effective
    _ = { base with comparison :=
          { base.comparison with thresholds := r.effective.comparison.thresholds } } := rfl
    _ = _ := by rw [hthresholds]

/-- What has to go well, one after the other: the file, the environment, and the ranges. -/
theorem resolve_eq : resolve file environment commandLine = (do
    let base ← file.elim (.ok .standard) SettingsFile.read
    let overrides ← ThresholdOverrides.ofEnvironment environment
    let settings :=
      ((ofLayer (baseLayer file) base).under .environment overrides).under .commandLine commandLine
    match settings.effective.comparison.thresholds.fault? with
    | some fault => .error (.threshold fault)
    | none => .ok settings) := by
  cases file with
  | none => rfl
  | some f =>
    rw [resolve, Option.elim_some]
    cases f.read <;> rfl

theorem resolve_eq_ok_iff {r : LayeredSettings} :
    resolve file environment commandLine = .ok r ↔
      (∀ name ∈ ThresholdOverrides.variableNames, IsNumeric environment name) ∧
        (thresholdsInForce file environment commandLine).AreInRange ∧
        ∃ base, BaseSettings file base ∧ r = inForce file environment commandLine base := by
  have hread (base : AuditSettings) :
      file.elim (.ok .standard) SettingsFile.read = .ok base ↔ BaseSettings file base := by
    cases file with
    | none => exact ⟨fun h => (Except.ok.inj h).symm, fun h => congrArg Except.ok h.symm⟩
    | some f => exact SettingsFile.read_eq_ok_iff
  simp only [resolve_eq, bind_eq_ok_iff, hread, ThresholdOverrides.ofEnvironment_eq_ok_iff,
    ← Thresholds.fault?_eq_none_iff]
  constructor
  · rintro ⟨base, hbase, _, ⟨hvariables, rfl⟩, h⟩
    rw [under_under hbase, effective_inForce hbase] at h
    split at h
    next => cases h
    next hfault => exact ⟨hvariables, hfault, base, hbase, (Except.ok.inj h).symm⟩
  · rintro ⟨hvariables, hfault, base, hbase, rfl⟩
    refine ⟨base, hbase, _, ⟨hvariables, rfl⟩, ?_⟩
    rw [under_under hbase, effective_inForce hbase, hfault]

/-- Settings are resolved when all layers can be read and what is in force is in range, and then
each of the three thresholds is that of the last layer which gives it, and all else is as it was. -/
theorem resolve_precedence (file : Option SettingsFile) (environment : String → Option String)
    (commandLine : ThresholdOverrides) :
    ((∃ r, resolve file environment commandLine = .ok r) ↔
        (∃ base, BaseSettings file base) ∧
          (∀ name ∈ ThresholdOverrides.variableNames, IsNumeric environment name) ∧
          (thresholdsInForce file environment commandLine).AreInRange) ∧
      ∀ r, resolve file environment commandLine = .ok r →
        ∃ base, BaseSettings file base ∧ r = inForce file environment commandLine base ∧
          r.effective =
            { base with comparison :=
                { base.comparison with
                  thresholds := thresholdsInForce file environment commandLine } } := by
  simp only [resolve_eq_ok_iff]
  constructor
  · constructor
    · rintro ⟨_, hvariables, hrange, base, hbase, rfl⟩
      exact ⟨⟨base, hbase⟩, hvariables, hrange⟩
    · rintro ⟨⟨base, hbase⟩, hvariables, hrange⟩
      exact ⟨_, hvariables, hrange, base, hbase, rfl⟩
  · rintro _ ⟨-, -, base, hbase, rfl⟩
    exact ⟨base, hbase, rfl, effective_inForce hbase⟩

end LayeredSettings

end MigrationAudit
