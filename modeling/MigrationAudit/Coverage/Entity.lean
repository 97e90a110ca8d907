import MigrationAudit.Facts.Project
import MigrationAudit.Settings.Basic
import MigrationAudit.Text.Case

/-!
# Entities

Routines and classes as they are compared. The key of an entity is its name in lower case without
the marks of its role, so that a source name and its counterpart have the same key.
-/

namespace MigrationAudit

open Text

/-- A routine or a class that is compared. Only routines have parameters and a return type. -/
structure Entity where
  name : String
  unit : String
  arity : Option Nat := none
  returnType : Option String := none
  key : String
deriving DecidableEq, Repr

/-- The text behind the first of some beginnings that leaves something. -/
def dropOneFront (fronts : List String) (cs : List Char) : List Char :=
  let behind (front : String) :=
    ((lowercase front).toList.isPrefixOf? cs).filter fun rest => !rest.isEmpty
  (fronts.findSome? behind).getD cs

/-- The text before the first of some endings that leaves something. -/
def dropOneEnd (ends : List String) (cs : List Char) : List Char :=
  let ahead (back : String) :=
    ((lowercase back).toList.isSuffixOf? cs).filter fun rest => !rest.isEmpty
  (ends.findSome? ahead).getD cs

def trimUnderscores (cs : List Char) : List Char := trimWhere (· == '_') cs

namespace ComparisonSettings

variable {α : Type} (s : ComparisonSettings α)

def routineKey (name : String) : String :=
  let lower := lowerAfter [] (trim name.toList)
  String.ofList (trimUnderscores (dropOneEnd s.routineEnds (dropOneFront s.routineFronts lower)))

/-- The name of a class in lower case without its type letter. The letter counts as such before an
upper-case character or a role. -/
def withoutTypeLetter (name : List Char) : List Char :=
  let lower := lowerAfter [] name
  match name with
  | 'T' :: second :: _ =>
    let rest := lower.drop 1
    if isUppercase second || s.classFronts.any fun front => (lowercase front).toList.isPrefixOf rest
    then rest
    else lower
  | _ => lower

def classKey (name : String) : String :=
  let base := s.withoutTypeLetter (trim name.toList)
  String.ofList (trimUnderscores (dropOneEnd s.classEnds (dropOneFront s.classFronts base)))

def routineEntity (unit : String) (r : Routine) : Entity :=
  { name := r.name
    unit
    arity := some r.arity
    returnType := r.returnType
    key := s.routineKey r.name }

def classEntity (unit : String) (c : ClassDecl) : Entity :=
  { name := c.name, unit, key := s.classKey c.name }

end ComparisonSettings

/-- The order of entities by name, then by unit. -/
def Entity.compare : Entity → Entity → Ordering :=
  compareLex (compareOn (·.name)) (compareOn (·.unit))

end MigrationAudit
