import MigrationAudit.Facts.Lists
import MigrationAudit.Scalar
import MigrationAudit.Text.Split

/-!
# Settings

The tables and thresholds of extraction, of planning and of comparison. Each record is standard until
a layer changes it.
-/

namespace MigrationAudit

/-! ## Extraction -/

/-- The tables that extraction goes by. -/
structure ExtractionSettings where
  formSupertypes : List String := ["TForm", "TFrame", "TCustomForm"]
  dataModuleSupertypes : List String := ["TDataModule"]
  datasetComponentTypes : List String :=
    ["TQuery", "TTable", "TStoredProc", "TDatabase", "TADOQuery", "TADOTable", "TADOConnection",
      "TADOStoredProc", "TFDQuery", "TFDTable", "TFDConnection", "TFDStoredProc", "TIBQuery",
      "TIBTable", "TIBDatabase", "TSQLQuery", "TSQLConnection", "TClientDataSet", "TDataSource"]
  datasetMethods : List String :=
    ["Open", "Close", "ExecSQL", "Post", "Edit", "Insert", "Append", "Delete", "Refresh",
      "ApplyUpdates"]
  transactionMethods : List String :=
    ["StartTransaction", "BeginTrans", "Commit", "CommitTrans", "Rollback", "RollbackTrans"]
  serviceFilenameTokens : List String := ["service", "servico", "manager"]
  utilityFilenameTokens : List String := ["util", "utils", "helper", "funcoes", "lib"]
  eventHandlerSuffixes : List String :=
    ["Click", "DblClick", "Change", "Enter", "Exit", "KeyPress", "KeyDown", "KeyUp", "Show",
      "Create", "Destroy"]
  maxNestingDepth : Nat := 64
deriving DecidableEq, Repr

namespace ExtractionSettings

def isFormSupertype (s : ExtractionSettings) (name : String) : Bool :=
  holdsName s.formSupertypes name

def isDataModuleSupertype (s : ExtractionSettings) (name : String) : Bool :=
  holdsName s.dataModuleSupertypes name

def isDatasetComponent (s : ExtractionSettings) (name : String) : Bool :=
  holdsName s.datasetComponentTypes name

/-- Whether a routine is named like an event handler: by one of the suffixes with something in
front. -/
def isEventHandler (s : ExtractionSettings) (name : String) : Bool :=
  s.eventHandlerSuffixes.any fun suffix =>
    suffix.utf8ByteSize < name.utf8ByteSize && name.toLower.endsWith suffix.toLower

end ExtractionSettings

/-! ## Planning -/

structure EffortWeeks (α : Type) where
  low : α
  medium : α
  high : α
deriving DecidableEq, Repr

def EffortWeeks.standard {α : Type} [Scalar α] : EffortWeeks α :=
  ⟨Scalar.ratio 1 2, Scalar.ofNat 1, Scalar.ofNat 2⟩

structure PlanningSettings (α : Type) where
  validationWords : List String := ["validate", "valida", "check", "verify", "verifica"]
  computationWords : List String := ["calculate", "calcula", "compute", "process", "processa"]
  eventWords : List String :=
    ["click", "button", "btn", "event", "change", "keypress", "keydown", "keyup"]
  dataWords : List String := ["data", "entity", "model", "dto", "dados"]
  orchestrationWords : List String := ["service", "manager", "servico", "gerenciador"]
  typeLetters : String := "T"
  roleFronts : List String := ["datamodule", "form", "frm", "dm", "btn"]
  roleEnds : List String :=
    ["DataModule", "Form", "Frm", "DM", "Click", "Handler", "Event", "Unit"]
  fewParams : Nat := 2
  manyParams : Nat := 5
  fewMethods : Nat := 5
  manyMethods : Nat := 10
  manyProperties : Nat := 10
  opaqueReturnTypes : List String := ["Variant", "OleVariant", "Pointer"]
  formComplexity : Nat := 3
  dataModuleComplexity : Nat := 4
  highComplexity : Nat := 4
  effort : EffortWeeks α
deriving DecidableEq, Repr

def PlanningSettings.standard {α : Type} [Scalar α] : PlanningSettings α :=
  { effort := .standard }

/-! ## Comparison -/

/-- The thresholds of a comparison. Similarity and confidence are fractions, coverage is a
percentage. -/
structure Thresholds (α : Type) where
  similarityFloor : α
  minConfidence : α
  coverageThreshold : α
  recommendationCoverage : α
deriving DecidableEq, Repr

def Thresholds.standard {α : Type} [Scalar α] : Thresholds α :=
  { similarityFloor := Scalar.ratio 7 10
    minConfidence := Scalar.ratio 3 10
    coverageThreshold := Scalar.ofNat 75
    recommendationCoverage := Scalar.ofNat 80 }

structure ThresholdFault (α : Type) where
  name : String
  bound : Nat
  value : α
deriving DecidableEq, Repr

/-- The fault of a value that is not between zero and a bound. -/
def ThresholdFault.of? {α : Type} [Scalar α] (name : String) (bound : Nat) (value : α) :
    Option (ThresholdFault α) :=
  if Scalar.ofNat 0 ≤ value ∧ value ≤ Scalar.ofNat bound then none else some ⟨name, bound, value⟩

def Thresholds.fault? {α : Type} [Scalar α] (t : Thresholds α) : Option (ThresholdFault α) :=
  ThresholdFault.of? "similarity_floor" 1 t.similarityFloor <|>
    ThresholdFault.of? "min_confidence" 1 t.minConfidence <|>
    ThresholdFault.of? "coverage_threshold" 100 t.coverageThreshold <|>
    ThresholdFault.of? "recommendation_coverage" 100 t.recommendationCoverage

/-- The types that stand for one another, each with the type that is meant, in lower case. -/
def typeEquivalences : List (String × String) :=
  [("ansistring", "string"), ("bigdecimal", "bigdecimal"), ("bool", "boolean"),
    ("boolean", "boolean"), ("cardinal", "integer"), ("char", "char"), ("character", "char"),
    ("currency", "bigdecimal"), ("double", "double"), ("extended", "double"), ("float", "float"),
    ("int", "integer"), ("int64", "long"), ("integer", "integer"), ("localdate", "localdate"),
    ("localdatetime", "localdatetime"), ("long", "long"), ("longint", "integer"),
    ("real", "double"), ("single", "float"), ("smallint", "integer"), ("string", "string"),
    ("tdate", "localdate"), ("tdatetime", "localdatetime"), ("unicodestring", "string"),
    ("void", "void"), ("widestring", "string")]

structure ComparisonSettings (α : Type) where
  thresholds : Thresholds α
  routineFronts : List String := ["btn", "frm", "get", "set", "create", "delete", "update"]
  routineEnds : List String := ["click", "handler", "action", "event", "method"]
  classFronts : List String := ["datamodule", "form", "frm", "dm"]
  classEnds : List String :=
    ["datamodule", "controller", "repository", "service", "entity", "impl", "form", "frm", "dm"]
  typeEquivalences : List (String × String) := typeEquivalences
deriving DecidableEq, Repr

namespace ComparisonSettings

def standard {α : Type} [Scalar α] : ComparisonSettings α := { thresholds := .standard }

/-- The type that a type name stands for, in lower case. -/
def canonicalType {α : Type} (s : ComparisonSettings α) (name : String) : String :=
  let lower := (String.ofList (Text.trim name.toList)).toLower
  (s.typeEquivalences.lookup lower).getD lower

end ComparisonSettings

end MigrationAudit
