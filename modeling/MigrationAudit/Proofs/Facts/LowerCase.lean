import MigrationAudit.Facts.Basic
import MigrationAudit.Facts.Lists
import MigrationAudit.Proofs.Text.LowerCase
import MigrationAudit.Settings.Basic

/-!
# Facts in lower case

The facts of a unit with the names and the pieces of text in them in lower case. Statements in
literals stay as they are, and so does the path of the unit.
-/

namespace MigrationAudit

open Text

/-! ## Names -/

@[simp] theorem holdsName_toLower (names : List String) (name : String) :
    holdsName names name.toLower = holdsName names name := by
  simp [holdsName]

theorem holdsName_map_toLower (names : List String) (name : String) :
    holdsName (names.map String.toLower) name = holdsName names name := by
  simp [holdsName, Function.comp_def]

theorem pushUnique_toLower (names : List String) (name : String) :
    pushUnique (names.map String.toLower) name.toLower =
      (pushUnique names name).map String.toLower := by
  rw [pushUnique, holdsName_map_toLower, holdsName_toLower, pushUnique]
  split <;> simp

@[simp] theorem lastComponent_toLower (name : String) :
    lastComponent name.toLower = (lastComponent name).toLower := by
  rw [lastComponent, toList_toLower, ← lowerLatin_reverse,
    takeWhile_lowerLatin (ignoresCase_bne rfl), lastComponent, toLower_ofList, lowerLatin_reverse]

theorem utf8ByteSize_ofList (cs : List Char) : (String.ofList cs).utf8ByteSize = width cs := by
  induction cs with
  | nil => rfl
  | cons a cs ih => rw [String.ofList_cons, String.utf8ByteSize_append, ih, width]; simp

theorem utf8ByteSize_toLower (s : String) : s.toLower.utf8ByteSize = s.utf8ByteSize := by
  rw [← String.ofList_toList (s := s), toLower_ofList, utf8ByteSize_ofList, utf8ByteSize_ofList,
    width_lowerLatin]

namespace ExtractionSettings

variable (s : ExtractionSettings) (name : String)

@[simp] theorem isFormSupertype_toLower : s.isFormSupertype name.toLower = s.isFormSupertype name :=
  holdsName_toLower ..

@[simp] theorem isDataModuleSupertype_toLower :
    s.isDataModuleSupertype name.toLower = s.isDataModuleSupertype name := holdsName_toLower ..

@[simp] theorem isDatasetComponent_toLower :
    s.isDatasetComponent name.toLower = s.isDatasetComponent name := holdsName_toLower ..

@[simp] theorem isEventHandler_toLower : s.isEventHandler name.toLower = s.isEventHandler name := by
  simp [isEventHandler, utf8ByteSize_toLower]

end ExtractionSettings

/-! ## Facts -/

def Param.lowerCase (p : Param) : Param :=
  { p with
    name := p.name.toLower
    typeName := p.typeName.map String.toLower }

namespace Routine

/-- The routine in lower case. Directives are in lower case anyway. -/
def lowerCase (r : Routine) : Routine :=
  { r with
    name := r.name.toLower
    owner := r.owner.map String.toLower
    params := r.params.map Param.lowerCase
    returnType := r.returnType.map String.toLower
    callHints := r.callHints.map String.toLower }

variable (r : Routine)

@[simp] theorem name_lowerCase : r.lowerCase.name = r.name.toLower := rfl

@[simp] theorem owner_lowerCase : r.lowerCase.owner = r.owner.map String.toLower := rfl

@[simp] theorem hasBody_lowerCase : r.lowerCase.hasBody = r.hasBody := rfl

@[simp] theorem line_lowerCase : r.lowerCase.line = r.line := rfl

@[simp] theorem arity_lowerCase : r.lowerCase.arity = r.arity := List.length_map ..

@[simp] theorem qualifiedName_lowerCase : r.lowerCase.qualifiedName = r.qualifiedName.toLower := by
  simp only [qualifiedName, owner_lowerCase, name_lowerCase]
  cases r.owner with
  | none => rfl
  | some owner =>
    simp [toLower_eq_self (s := ".") rfl]

@[simp] theorem takesSender_lowerCase : r.lowerCase.takesSender = r.takesSender := by
  simp [takesSender, lowerCase, Param.lowerCase, Function.comp_def]

end Routine

def Field.lowerCase (f : Field) : Field :=
  { f with
    name := f.name.toLower
    typeName := f.typeName.map String.toLower }

def ClassDecl.lowerCase (c : ClassDecl) : ClassDecl :=
  { c with
    name := c.name.toLower
    parent := c.parent.map String.toLower
    interfaces := c.interfaces.map String.toLower
    methods := c.methods.map Routine.lowerCase
    fields := c.fields.map Field.lowerCase }

/-- The operation in lower case, but for the text of a statement. -/
def DataOp.lowerCase (op : DataOp) : DataOp :=
  { op with
    raw := if op.kind.isSql then op.raw else op.raw.toLower
    componentType := op.componentType.map String.toLower
    owner := op.owner.map String.toLower }

def Dependency.lowerCase (d : Dependency) : Dependency := { d with name := d.name.toLower }

def Diagnostic.lowerCase (d : Diagnostic) : Diagnostic := { d with reason := d.reason.toLower }

/-- The unit in lower case, but for its path. -/
def SourceUnit.lowerCase (u : SourceUnit) : SourceUnit :=
  { u with
    name := u.name.toLower
    classes := u.classes.map ClassDecl.lowerCase
    routines := u.routines.map Routine.lowerCase
    dependencies := u.dependencies.map Dependency.lowerCase
    dataOps := u.dataOps.map DataOp.lowerCase
    diagnostics := u.diagnostics.map Diagnostic.lowerCase }

end MigrationAudit
