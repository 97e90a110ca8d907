import MigrationAudit.Facts.Basic
import MigrationAudit.Facts.Project
import MigrationAudit.Plan.Naming

/-!
# Components

Every free routine, every class and every table that a statement names becomes a component of the
target. Routines and classes are given a kind of target by the words in their names and by their
roles, and a complexity from 1 to 5, which tells the effort. Tables are the same when their names
differ only in case. Identifiers that would coincide are numbered.
-/

namespace MigrationAudit

open Text

/-! ## Kinds and complexity -/

def hasWord (words : List String) (name : String) : Bool :=
  words.any fun w => occursIn (lowercase w).toList (lowercase name).toList

def clampComplexity (score : Nat) : Nat := max 1 (min score 5)

def countTrue (conditions : List Bool) : Nat := conditions.countP id

namespace PlanningSettings

variable {α : Type} (s : PlanningSettings α)

/-- The kind of target of a free routine in a unit of some role. A name that tells of validation
comes before one that tells of computation, and that before events and forms. -/
def routineKind (r : Routine) (unit : UnitKind) : TargetKind :=
  if hasWord s.validationWords r.name then .validator
  else if hasWord s.computationWords r.name then .service
  else if hasWord s.eventWords r.name || r.isEventHandler || unit == .form then .controller
  else .utility

/-- The kind of target of a class. Its role comes before its name. -/
def classKind (c : ClassDecl) : TargetKind :=
  if c.isFormLike then .controller
  else if c.isDataModule then .service
  else if hasWord s.dataWords c.name then .entity
  else if hasWord s.orchestrationWords c.name then .service
  else .component

/-- The complexity of a routine: one, and one more for more than a few parameters, for many of them,
and for a return type that hides what is returned. -/
def routineComplexity (r : Routine) : Nat :=
  let opaqueReturn :=
    r.returnType.any fun t => s.opaqueReturnTypes.any fun o => o.toLower == t.toLower
  clampComplexity
    (1 + countTrue [decide (s.fewParams < r.arity), decide (s.manyParams < r.arity), opaqueReturn])

/-- The complexity of a class. Forms and data modules have their own; any other class has two, and
one more for more than a few methods, for many of them, and for many properties. -/
def classComplexity (c : ClassDecl) : Nat :=
  if c.isFormLike then clampComplexity s.formComplexity
  else if c.isDataModule then clampComplexity s.dataModuleComplexity
  else
    let methods := c.methods.length
    clampComplexity (2 + countTrue [decide (s.fewMethods < methods), decide (s.manyMethods < methods),
      decide (s.manyProperties < c.propertyCount)])

end PlanningSettings

def EffortWeeks.of {α : Type} (e : EffortWeeks α) (complexity : Nat) : α :=
  if complexity ≤ 2 then e.low else if complexity = 3 then e.medium else e.high

/-! ## Components -/

/-- A component of the target platform, with what it is derived from. -/
structure Component where
  id : String
  sourceName : String
  sourceKind : SourceKind
  unit : Option String := none
  targetKind : TargetKind
  targetName : String
  complexity : Nat
  dependencies : List String
  notes : List String
deriving DecidableEq, Repr

namespace Component

/-- The component of a free routine. It depends on the routines it calls that are among the `known`
ones, whose names are in lower case. -/
def ofRoutine {α : Type} (s : PlanningSettings α) (known : List String) (u : SourceUnit)
    (r : Routine) : Component :=
  let kind := s.routineKind r u.kind
  { id := s!"routine:{u.name}.{r.name}"
    sourceName := r.name
    sourceKind := .routine
    unit := some u.name
    targetKind := kind
    targetName := kind.nameFor s r.name
    complexity := s.routineComplexity r
    dependencies :=
      r.callHints.filter fun c => c.toLower != r.name.toLower && known.contains (lowercase c)
    notes := (if r.isEventHandler then ["event handler; expose as an endpoint"] else []) ++
      (if r.hasBody then [] else ["no body found; declaration only"]) }

def roleNotes (c : ClassDecl) : List String :=
  if c.isFormLike then ["form: fixed complexity, UI rebuilt on the client"]
  else if c.isDataModule then ["data module: fixed complexity, SQL moves to repositories"]
  else []

/-- The component of a class. It depends on its parent. -/
def ofClass {α : Type} (s : PlanningSettings α) (u : SourceUnit) (c : ClassDecl) : Component :=
  let kind := s.classKind c
  let held := u.dataOps.countP fun op => op.kind == .component && op.owner == some c.name
  { id := s!"class:{u.name}.{c.name}"
    sourceName := c.name
    sourceKind := .declaredType
    unit := some u.name
    targetKind := kind
    targetName := kind.nameFor s c.name
    complexity := s.classComplexity c
    dependencies := c.parent.toList
    notes := roleNotes c ++ (if held = 0 then [] else [s!"{held} dataset component(s)"]) }

end Component

structure TableUse where
  table : String
  unit : String
deriving DecidableEq, Repr

namespace TableUse

/-- The name that all spellings of a table share. -/
def key (t : TableUse) : String := uppercase t.table

def ofProject (p : Project) : List TableUse :=
  p.units.flatMap fun u => (u.dataOps.filter (·.kind.isSql)).filterMap fun op =>
    op.table.map (⟨·, u.name⟩)

end TableUse

namespace Component

/-- The component of the table with a key. Its name is the first spelling; it depends on the units
with a statement that names it. -/
def ofTable (uses : List TableUse) (key : String) : Component :=
  let own := uses.filter fun t => t.key == key
  let name := own.head?.elim key (·.table)
  { id := s!"table:{key}"
    sourceName := name
    sourceKind := .table
    targetKind := .repository
    targetName := repositoryName name
    complexity := 2
    dependencies := (sortBy compare (own.map (·.unit))).eraseReps
    notes := [s!"{own.length} embedded SQL statement(s)"] }

/-- Numbers identifiers from their second occurrence on, where `taken` holds those that came
before. -/
def numberApart (taken : List String) : List Component → List Component
  | [] => []
  | c :: rest =>
    let n := taken.count c.id
    (if n = 0 then c else { c with id := s!"{c.id}#{n + 1}" }) :: numberApart (c.id :: taken) rest

/-- The components of a project in the order of its units, the tables last. -/
def ofProject {α : Type} (p : Project) (s : PlanningSettings α) : List Component :=
  -- Calls are looked up among the free routines of all units.
  let known := p.units.flatMap fun u => u.routines.map fun r => lowercase r.name
  let uses := TableUse.ofProject p
  let tables := (sortBy compare (uses.map (·.key))).eraseReps
  numberApart [] <|
    (p.units.flatMap fun u => u.routines.map (ofRoutine s known u) ++ u.classes.map (ofClass s u)) ++
      tables.map (ofTable uses)

end Component

end MigrationAudit
