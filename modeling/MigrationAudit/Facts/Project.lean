import MigrationAudit.Facts.Lists
import MigrationAudit.Facts.Summary

/-!
# Projects

The units of a project are given names of their own, take over the roles of their ancestors, and are
put in order. The result does not depend on the order in which the units come. Planning and
comparison need facts of the current schema version with at least one unit.
-/

namespace MigrationAudit

/-- The version of the form in which facts are exchanged. -/
def schemaVersion : Nat := 1

structure Project where
  schemaVersion : Nat
  units : List SourceUnit
  summary : Summary
  diagnostics : List Diagnostic
deriving DecidableEq, Repr

def SourceUnit.compareByPath : SourceUnit → SourceUnit → Ordering :=
  compareLex (compareOn (·.path)) (compareOn (·.name))

def SourceUnit.compareByName : SourceUnit → SourceUnit → Ordering := compareOn (·.name)

/-- The order of diagnostics by path, line, kind and reason; one without a line comes first. -/
def Diagnostic.compare : Diagnostic → Diagnostic → Ordering :=
  compareLex (compareOn (·.path))
    (compareLex (compareOn fun d => d.line.elim 0 (· + 1))
      (compareLex (compareOn (·.kind.rank)) (compareOn (·.reason))))

namespace SourceUnit

/-- The name of a unit when its own name is already taken. -/
def distinctName (u : SourceUnit) : String := u.name ++ "@" ++ u.path

def duplicate (u : SourceUnit) : Diagnostic :=
  { path := u.path
    kind := .duplicateUnit
    reason := s!"unit name '{u.name}' already declared elsewhere" }

/-- Renames each unit whose name, in lower case, is among those taken before it. -/
def nameApart (taken : List String) : List SourceUnit → List SourceUnit × List Diagnostic
  | [] => ([], [])
  | u :: us =>
    if taken.contains u.name.toLower then
      let (named, notes) := nameApart (u.distinctName.toLower :: taken) us
      ({ u with name := u.distinctName } :: named, u.duplicate :: notes)
    else
      let (named, notes) := nameApart (u.name.toLower :: taken) us
      (u :: named, notes)

end SourceUnit

/-- The roles that a class hands on to its descendants. -/
structure ClassRoles where
  parent : Option String
  isFormLike : Bool
  isDataModule : Bool

/-- The roles of classes by lower-case name; of classes of the same name the first one counts. -/
abbrev RoleTable := List (String × ClassRoles)

namespace RoleTable

def ofUnits (units : List SourceUnit) : RoleTable :=
  units.flatMap fun u => u.classes.map fun c =>
    (c.name.toLower, ⟨c.parent.map String.toLower, c.isFormLike, c.isDataModule⟩)

def forget (t : RoleTable) (name : String) : RoleTable := t.filter fun e => e.1 != name

theorem length_forget_lt {t : RoleTable} {name : String} {r : ClassRoles}
    (h : t.lookup name = some r) : (t.forget name).length < t.length := by
  induction t with
  | nil => simp at h
  | cons e t ih =>
    obtain ⟨key, role⟩ := e
    by_cases hk : name = key
    · subst hk
      rw [forget, List.filter_cons_of_neg (by simp)]
      exact Nat.lt_succ_of_le (List.length_filter_le ..)
    · rw [List.lookup_cons, beq_false_of_ne hk] at h
      rw [forget, List.filter_cons_of_pos (by simp [Ne.symm hk])]
      exact Nat.succ_lt_succ (ih h)

/-- Whether a class or one of its ancestors in the project is form-like, and whether one is a data
module. A class that comes up again on the way ends the walk. -/
def inherited (t : RoleTable) (name : String) : Bool × Bool :=
  match _h : t.lookup name with
  | none => (false, false)
  | some r =>
    match r.parent with
    | none => (r.isFormLike, r.isDataModule)
    | some parent =>
      let (form, data) := inherited (t.forget name) parent
      (r.isFormLike || form, r.isDataModule || data)
termination_by t.length
decreasing_by exact length_forget_lt _h

end RoleTable

namespace ClassDecl

def inherit (t : RoleTable) (c : ClassDecl) : ClassDecl :=
  let (form, data) := t.inherited c.name.toLower
  { c with
    isFormLike := c.isFormLike || form
    isDataModule := c.isDataModule || data
    isDataAccessLike := c.isDataAccessLike || (data && !c.isDataModule) }

end ClassDecl

namespace SourceUnit

def inherit (t : RoleTable) (u : SourceUnit) : SourceUnit :=
  let classes := u.classes.map (·.inherit t)
  let kind :=
    -- A role that is told by the classes comes before one that is told by the file name.
    if classes.any (·.isFormLike) && u.kind != .form then .form
    else if classes.any (·.isDataModule) && UnitKind.rank .dataModule < u.kind.rank then .dataModule
    else u.kind
  { u with classes, kind }

end SourceUnit

namespace Project

def assemble (units : List SourceUnit) (diagnostics : List Diagnostic) : Project :=
  let (named, notes) := SourceUnit.nameApart [] (sortBy SourceUnit.compareByPath units)
  -- The first class of a name counts, so roles are inherited in the order of the paths.
  let placed := sortBy SourceUnit.compareByName (named.map (·.inherit (.ofUnits named)))
  let all := diagnostics ++ notes ++ placed.flatMap (·.diagnostics)
  { schemaVersion := MigrationAudit.schemaVersion
    units := placed
    summary := .ofUnits placed
    diagnostics := (sortBy Diagnostic.compare all).eraseReps }

def allRoutines (p : Project) : List (SourceUnit × Routine) :=
  p.units.flatMap fun u => u.allRoutines.map (u, ·)

def allClasses (p : Project) : List (SourceUnit × ClassDecl) :=
  p.units.flatMap fun u => u.classes.map (u, ·)

def unitNamed? (p : Project) (name : String) : Option SourceUnit := p.units.find? (·.name == name)

end Project

/-! ## Facts that cannot be used -/

/-- The part a project takes in an operation. -/
inductive ProjectRole
  | source
  | target
deriving DecidableEq, Repr

instance : Tagged ProjectRole where
  all := [.source, .target]
  tag
    | .source => "source"
    | .target => "target"

/-- Why the facts of a project cannot be used. -/
inductive FactsFault
  | otherVersion (version : Nat)
  | noUnits
deriving DecidableEq, Repr

namespace FactsFault

def message (role : ProjectRole) : FactsFault → String
  | otherVersion version =>
    s!"{tag role} facts have schema version {version}, expected {schemaVersion}"
  | noUnits => s!"{tag role} project has no units"

end FactsFault

def Project.fault? (p : Project) : Option FactsFault :=
  if p.schemaVersion ≠ MigrationAudit.schemaVersion then some (.otherVersion p.schemaVersion)
  else if p.units.isEmpty then some .noUnits
  else none

end MigrationAudit
