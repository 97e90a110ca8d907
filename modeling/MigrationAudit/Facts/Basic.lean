/-!
# Facts about one source file

What is known about a file after it has been read: its classes with their members, its free
routines, what it depends on, where it touches a database, and what could not be read.
-/

namespace MigrationAudit

/-! ## Written names -/

/-- A finite type whose values have written names. -/
class Tagged (α : Type) where
  all : List α
  tag : α → String

export Tagged (tag)

def Tagged.ofTag? {α : Type} [Tagged α] (s : String) : Option α :=
  (Tagged.all : List α).find? fun a => tag a == s

/-! ## Facts -/

inductive Language
  | pascal
  | java
  | unknown
deriving DecidableEq, Repr

instance : Tagged Language where
  all := [.pascal, .java, .unknown]
  tag
    | .pascal => "pascal"
    | .java => "java"
    | .unknown => "unknown"

/-- The role of a unit. Earlier roles win over later ones. -/
inductive UnitKind
  | form
  | dataModule
  | service
  | utility
  | plainUnit
  | unknown
deriving DecidableEq, Repr

instance : Tagged UnitKind where
  all := [.form, .dataModule, .service, .utility, .plainUnit, .unknown]
  tag
    | .form => "form"
    | .dataModule => "data_module"
    | .service => "service"
    | .utility => "utility"
    | .plainUnit => "plain_unit"
    | .unknown => "unknown"

/-- The place of a role in the order of precedence; zero wins over all others. -/
def UnitKind.rank : UnitKind → Nat
  | .form => 0
  | .dataModule => 1
  | .service => 2
  | .utility => 3
  | .plainUnit => 4
  | .unknown => 5

inductive RoutineKind
  | procedure
  | function
  | constructor
  | destructor
  | method
deriving DecidableEq, Repr

instance : Tagged RoutineKind where
  all := [.procedure, .function, .constructor, .destructor, .method]
  tag
    | .procedure => "procedure"
    | .function => "function"
    | .constructor => "constructor"
    | .destructor => "destructor"
    | .method => "method"

inductive Visibility
  | publicAccess
  | protectedAccess
  | privateAccess
  | publishedAccess
  | packageAccess
deriving DecidableEq, Repr

instance : Tagged Visibility where
  all := [.publicAccess, .protectedAccess, .privateAccess, .publishedAccess, .packageAccess]
  tag
    | .publicAccess => "public"
    | .protectedAccess => "protected"
    | .privateAccess => "private"
    | .publishedAccess => "published"
    | .packageAccess => "package"

inductive Stereotype
  | controller
  | service
  | repository
  | entity
  | configuration
  | component
deriving DecidableEq, Repr

instance : Tagged Stereotype where
  all := [.controller, .service, .repository, .entity, .configuration, .component]
  tag
    | .controller => "controller"
    | .service => "service"
    | .repository => "repository"
    | .entity => "entity"
    | .configuration => "configuration"
    | .component => "component"

inductive DataOpKind
  | select
  | insert
  | update
  | delete
  | otherSql
  | component
  | datasetCall
  | transaction
  | repository
deriving DecidableEq, Repr

instance : Tagged DataOpKind where
  all := [.select, .insert, .update, .delete, .otherSql, .component, .datasetCall, .transaction,
    .repository]
  tag
    | .select => "select"
    | .insert => "insert"
    | .update => "update"
    | .delete => "delete"
    | .otherSql => "other_sql"
    | .component => "component"
    | .datasetCall => "dataset_call"
    | .transaction => "transaction"
    | .repository => "repository"

/-- Whether an operation is a statement in a literal. -/
def DataOpKind.isSql : DataOpKind → Bool
  | .select | .insert | .update | .delete | .otherSql => true
  | _ => false

/-- Where a dependency is declared. -/
inductive DependencyScope
  | interface
  | implementation
  | importClause
deriving DecidableEq, Repr

instance : Tagged DependencyScope where
  all := [.interface, .implementation, .importClause]
  tag
    | .interface => "interface"
    | .implementation => "implementation"
    | .importClause => "import"

/-- Why something was not, or not fully, read. -/
inductive DiagnosticKind
  | inputError
  | malformedConstruct
  | duplicateUnit
deriving DecidableEq, Repr

instance : Tagged DiagnosticKind where
  all := [.inputError, .malformedConstruct, .duplicateUnit]
  tag
    | .inputError => "input_error"
    | .malformedConstruct => "malformed_construct"
    | .duplicateUnit => "duplicate_unit"

/-- The place of a kind when diagnostics are sorted. -/
def DiagnosticKind.rank : DiagnosticKind → Nat
  | .inputError => 0
  | .malformedConstruct => 1
  | .duplicateUnit => 2

structure Param where
  name : String
  typeName : Option String := none
  modifier : Option String := none
deriving DecidableEq, Repr

structure Endpoint where
  httpMethod : String
  path : String
deriving DecidableEq, Repr

/-- A free routine or a method. -/
structure Routine where
  name : String
  owner : Option String := none
  kind : RoutineKind
  params : List Param := []
  returnType : Option String := none
  visibility : Option Visibility := none
  complexity : Nat := 1
  callHints : List String := []
  isEventHandler : Bool := false
  isClassLevel : Bool := false
  hasBody : Bool := false
  directives : List String := []
  annotations : List String := []
  endpoint : Option Endpoint := none
  line : Nat := 1
deriving DecidableEq, Repr

namespace Routine

def arity (r : Routine) : Nat := r.params.length

/-- The name behind the class it belongs to, if any. -/
def qualifiedName (r : Routine) : String :=
  match r.owner with
  | some owner => owner ++ "." ++ r.name
  | none => r.name

def takesSender (r : Routine) : Bool := r.params.any fun p => p.name.toLower == "sender"

end Routine

/-- A field or property of a class. -/
structure Field where
  name : String
  typeName : Option String := none
  visibility : Visibility
  isProperty : Bool := false
  annotations : List String := []
  line : Nat := 1
deriving DecidableEq, Repr

/-- A class or another type with members. -/
structure ClassDecl where
  name : String
  parent : Option String := none
  interfaces : List String := []
  methods : List Routine := []
  fields : List Field := []
  annotations : List String := []
  stereotype : Option Stereotype := none
  table : Option String := none
  isFormLike : Bool := false
  isDataModule : Bool := false
  isDataAccessLike : Bool := false
  line : Nat := 1
deriving DecidableEq, Repr

def ClassDecl.propertyCount (c : ClassDecl) : Nat := c.fields.countP (·.isProperty)

structure DataOp where
  kind : DataOpKind
  raw : String
  table : Option String := none
  componentType : Option String := none
  owner : Option String := none
  line : Nat := 1
deriving DecidableEq, Repr

/-- A unit or package that is used. -/
structure Dependency where
  name : String
  scope : DependencyScope
deriving DecidableEq, Repr

structure SizeMetrics where
  totalLines : Nat := 0
  codeLines : Nat := 0
  commentLines : Nat := 0
  blankLines : Nat := 0
  maxNestingDepth : Nat := 0
deriving DecidableEq, Repr

/-- A note on what was not, or not fully, read. -/
structure Diagnostic where
  path : String
  kind : DiagnosticKind
  reason : String
  line : Option Nat := none
deriving DecidableEq, Repr

/-- The note on a construct that was only partly read. -/
def Diagnostic.malformed (path reason : String) (line : Nat) : Diagnostic :=
  { path, kind := .malformedConstruct, reason, line := some line }

/-- What is known about one file. -/
structure SourceUnit where
  name : String
  path : String
  language : Language
  kind : UnitKind := .unknown
  classes : List ClassDecl := []
  routines : List Routine := []
  dependencies : List Dependency := []
  dataOps : List DataOp := []
  metrics : SizeMetrics := {}
  diagnostics : List Diagnostic := []
deriving DecidableEq, Repr

namespace SourceUnit

/-- The free routines, and then the methods of each class. -/
def allRoutines (u : SourceUnit) : List Routine := u.routines ++ u.classes.flatMap (·.methods)

/-- The class with a name, whatever the case of its basic Latin letters. -/
def classNamed? (u : SourceUnit) (name : String) : Option ClassDecl :=
  u.classes.find? fun c => c.name.toLower == name.toLower

end SourceUnit

end MigrationAudit
