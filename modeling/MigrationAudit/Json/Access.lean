import MigrationAudit.Json.Number

/-!
# Reading typed data out of trees

A reader takes a tree to a value of its type, or refuses it. Fields of objects are required, or have
a default when they are missing, or may also be `null`. A field that is looked for may stand only
once; what else an object holds does not matter. The fields of a record may also be listed without
their names.
-/

namespace MigrationAudit.Json

def asString? : Json → Option String
  | .str s => some s
  | _ => none

def asBool? : Json → Option Bool
  | .bool b => some b
  | _ => none

/-- A natural number below `2 ^ bits`. -/
def asNat? (bits : Nat) : Json → Option Nat
  | .int i => if 0 ≤ i ∧ i.toNat < Nat.pow 2 bits then some i.toNat else none
  | _ => none

/-- A number, whole or not. -/
def asFloat? : Json → Option Float
  | .real x => some x
  | .int i => (ofWhole? i.natAbs).map fun x => if i < 0 then -x else x
  | _ => none

def asList? {α : Type} (f : Json → Option α) : Json → Option (List α)
  | .arr items => items.mapM f
  | _ => none

/-- A value that `f` reads, or `null`. -/
def asOption? {α : Type} (f : Json → Option α) : Json → Option (Option α)
  | .null => some none
  | j => (f j).map some

/-- Whether the value is an object. -/
def isObject : Json → Bool
  | .obj _ => true
  | _ => false

/-- A record as an object, given the names of its fields: the values of a list belong to the names
in turn, and the last names may go without one. -/
def record (names : List String) : Json → Json
  | .arr items => if items.length ≤ names.length then .obj (names.zip items) else .noValue
  | j => j

/-- A field that must be there. -/
def field? {α : Type} (j : Json) (key : String) (f : Json → Option α) : Option α :=
  match j.valuesOf key with
  | [v] => f v
  | _ => none

/-- A field with a default for when it is missing. -/
def fieldD? {α : Type} (j : Json) (key : String) (f : Json → Option α) (default : α) : Option α :=
  match j.valuesOf key with
  | [] => some default
  | [v] => f v
  | _ => none

/-- A field that may be missing or `null`. -/
def optional? {α : Type} (j : Json) (key : String) (f : Json → Option α) : Option (Option α) :=
  j.fieldD? key (asOption? f) none

end MigrationAudit.Json
