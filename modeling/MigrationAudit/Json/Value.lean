/-!
# Trees of JSON data

Whole numbers and other numbers are told apart, as they were written. An object keeps its fields in
order, also those that repeat a key.
-/

namespace MigrationAudit

inductive Json
  | null
  | bool (b : Bool)
  | int (i : Int)
  | real (x : Float)
  | str (s : String)
  | arr (items : List Json)
  | obj (entries : List (String × Json))
  /-- Well-formed text that stands for nothing: a number beyond the range of doubles, a string with
  half a surrogate pair, an object with such a key. -/
  | noValue
deriving Inhabited

namespace Json

/-- The value under a key of an object; of repeated keys the last one counts. -/
def get? (j : Json) (key : String) : Option Json :=
  match j with
  | .obj entries => entries.reverse.lookup key
  | _ => none

def keys : Json → List String
  | .obj entries => entries.map (·.1)
  | _ => []

def valuesOf (j : Json) (key : String) : List Json :=
  match j with
  | .obj entries => (entries.filter (·.1 == key)).map (·.2)
  | _ => []

/-- Replaces the value under a key of an object, or adds the key. -/
def set (j : Json) (key : String) (value : Json) : Json :=
  match j with
  | .obj entries =>
    if entries.any (·.1 == key) then
      .obj (entries.map fun (k, v) => if k == key then (k, value) else (k, v))
    else .obj (entries ++ [(key, value)])
  | j => j

def ofOption {α : Type} (f : α → Json) : Option α → Json
  | some a => f a
  | none => .null

def ofList {α : Type} (f : α → Json) (items : List α) : Json := .arr (items.map f)

def nat (n : Nat) : Json := .int n

end Json

end MigrationAudit
