import MigrationAudit.Decimal.Binary
import MigrationAudit.Error
import MigrationAudit.Json.Reader
import MigrationAudit.Settings.Exchange

/-!
# Layers of settings

The thresholds of a run come from four layers: the defaults, a file of settings, variables of the
environment and the command line. A later layer wins over an earlier one. All other settings come
from the first two.
-/

namespace MigrationAudit

inductive SettingLayer
  | standard
  | file
  | environment
  | commandLine
deriving DecidableEq, Repr

instance : Tagged SettingLayer where
  all := [.standard, .file, .environment, .commandLine]
  tag
    | .standard => "default"
    | .file => "config_file"
    | .environment => "env_var"
    | .commandLine => "cli_flag"

structure Layered where
  value : Float
  layer : SettingLayer
deriving DecidableEq, Repr

/-- The setting under a value of a later layer, if there is one. -/
def Layered.under (setting : Layered) (layer : SettingLayer) (value : Option Float) : Layered :=
  value.elim setting (⟨·, layer⟩)

structure ThresholdOverrides where
  coverageThreshold : Option Float := none
  minConfidence : Option Float := none
  similarityFloor : Option Float := none
deriving DecidableEq, Repr

/-- A file of settings: its path, with its text or the reason why it cannot be read. -/
structure SettingsFile where
  path : String
  text : Except String String

def SettingsFile.read (f : SettingsFile) : Except AuditError AuditSettings :=
  match f.text with
  | .error reason => .error (.unreadableConfig f.path reason)
  | .ok text =>
    match (Json.tree? text).bind AuditSettings.ofJson? with
    | some settings => .ok settings
    | none => .error (.malformedConfig f.path)

/-- The number that a variable of the environment holds, if it is set. -/
def numberIn (environment : String → Option String) (name : String) :
    Except AuditError (Option Float) :=
  match environment name with
  | none => .ok none
  | some value =>
    match Decimal.number? (Text.trim value.toList) with
    | some x => .ok (some x)
    | none => .error (.notANumber name value)

def ThresholdOverrides.ofEnvironment (environment : String → Option String) :
    Except AuditError ThresholdOverrides := do
  let coverageThreshold ← numberIn environment "MODERNIZE_COVERAGE_THRESHOLD"
  let minConfidence ← numberIn environment "MODERNIZE_MIN_CONFIDENCE"
  let similarityFloor ← numberIn environment "MODERNIZE_SIMILARITY_FLOOR"
  return { coverageThreshold, minConfidence, similarityFloor }

/-- Settings whose thresholds know the layers they come from. -/
structure LayeredSettings where
  base : AuditSettings
  coverageThreshold : Layered
  minConfidence : Layered
  similarityFloor : Layered

namespace LayeredSettings

def ofLayer (layer : SettingLayer) (base : AuditSettings) : LayeredSettings :=
  let t := base.comparison.thresholds
  { base
    coverageThreshold := ⟨t.coverageThreshold, layer⟩
    minConfidence := ⟨t.minConfidence, layer⟩
    similarityFloor := ⟨t.similarityFloor, layer⟩ }

def under (s : LayeredSettings) (layer : SettingLayer) (o : ThresholdOverrides) : LayeredSettings :=
  { s with
    coverageThreshold := s.coverageThreshold.under layer o.coverageThreshold
    minConfidence := s.minConfidence.under layer o.minConfidence
    similarityFloor := s.similarityFloor.under layer o.similarityFloor }

def effective (s : LayeredSettings) : AuditSettings :=
  let thresholds :=
    { s.base.comparison.thresholds with
      coverageThreshold := s.coverageThreshold.value
      minConfidence := s.minConfidence.value
      similarityFloor := s.similarityFloor.value }
  { s.base with comparison := { s.base.comparison with thresholds } }

/-- Brings the layers together. The thresholds in force must be in range. -/
def resolve (file : Option SettingsFile) (environment : String → Option String)
    (commandLine : ThresholdOverrides) : Except AuditError LayeredSettings := do
  let lower ←
    match file with
    | some f => (ofLayer .file) <$> f.read
    | none => pure (ofLayer .standard .standard)
  let overrides ← ThresholdOverrides.ofEnvironment environment
  let settings := (lower.under .environment overrides).under .commandLine commandLine
  -- Only what is in force is checked: a later layer may mend an earlier one.
  match settings.effective.comparison.thresholds.fault? with
  | some fault => throw (.threshold fault)
  | none => return settings

end LayeredSettings

end MigrationAudit
