import MigrationAudit.Facts.Basic
import MigrationAudit.Settings.Basic
import MigrationAudit.Text.Split
import MigrationAudit.Text.Case

/-!
# Targets and their names

What a part of the source becomes on the target platform has a kind and a name. A target name is the
source name without the marks of its role, with a capital letter in front and the suffix of its kind
at the end. At most one type letter, one role in front and one role at the end are left out.
-/

namespace MigrationAudit

open Text

/-! ## Kinds of target -/

inductive TargetKind
  | controller
  | service
  | entity
  | repository
  | utility
  | validator
  | component
deriving DecidableEq, Repr

namespace TargetKind

instance : Tagged TargetKind where
  all := [.controller, .service, .entity, .repository, .utility, .validator, .component]
  tag
    | .controller => "controller"
    | .service => "service"
    | .entity => "entity"
    | .repository => "repository"
    | .utility => "utility"
    | .validator => "validator"
    | .component => "component"

def suffix : TargetKind → String
  | .controller => "Controller"
  | .service => "Service"
  | .entity => ""
  | .repository => "Repository"
  | .utility => "Utils"
  | .validator => "Validator"
  | .component => "Component"

/-- The kinds in the order of their written names. -/
def byName : List TargetKind :=
  [.component, .controller, .entity, .repository, .service, .utility, .validator]

end TargetKind

inductive SourceKind
  | routine
  | declaredType
  | table
deriving DecidableEq, Repr

instance : Tagged SourceKind where
  all := [.routine, .declaredType, .table]
  tag
    | .routine => "routine"
    | .declaredType => "class"
    | .table => "table"

/-! ## Names -/

namespace PlanningSettings

variable {α : Type} (s : PlanningSettings α)

/-- The name without a type letter that an upper-case character follows. -/
def dropTypeLetter : List Char → List Char
  | first :: second :: rest =>
    if s.typeLetters.toList.contains first && isUppercase second then second :: rest
    else first :: second :: rest
  | name => name

/-- The name without the first role in front that an upper-case character follows. -/
def dropRoleFront (name : List Char) : List Char :=
  let behind (front : String) :=
    (dropFront? front.toList name).filter fun rest => rest.head?.any isUppercase
  (s.roleFronts.findSome? behind).getD name

/-- The name without the first role at its end that leaves something. -/
def dropRoleEnd (name : List Char) : List Char :=
  let ahead (back : String) := (dropBack? back.toList name).filter fun rest => !rest.isEmpty
  (s.roleEnds.findSome? ahead).getD name

def undecorated (name : List Char) : List Char :=
  s.dropRoleEnd (s.dropRoleFront (s.dropTypeLetter (trim name)))

end PlanningSettings

namespace TargetKind

/-- The name with the suffix of the kind, unless it ends in it already. -/
def addSuffix (k : TargetKind) (name : List Char) : List Char :=
  if (dropBack? k.suffix.toList name).isSome then name else name ++ k.suffix.toList

def nameFor {α : Type} (k : TargetKind) (s : PlanningSettings α) (source : String) : String :=
  let base := match s.undecorated source.toList with
    | [] => source.toList
    | base => base
  String.ofList (k.addSuffix (capitalize base))

end TargetKind

def isTableNameBreak (c : Char) : Bool := c == '_' || c == ' ' || c == '-'

/-- The name of the repository of a table: the words of the last part of its name, each with a
capital letter. -/
def repositoryName (table : String) : String :=
  let last := (splitAll '.' table.toList).getLast?.getD []
  let words := runsOf (fun c => !isTableNameBreak c) last
  let base := words.flatMap fun w => capitalize (lowerAfter [] w)
  let base := if base.isEmpty then "Table".toList else base
  String.ofList (base ++ TargetKind.repository.suffix.toList)

end MigrationAudit
