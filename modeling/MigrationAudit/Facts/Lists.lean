/-!
# Lists

Lists put into the order of a comparison, and lists of names. Names are the same when they differ
only in the case of their basic Latin letters.
-/

namespace MigrationAudit

/-- A list in the order of a comparison; equal members keep their order. -/
def sortBy {α : Type} (cmp : α → α → Ordering) (l : List α) : List α :=
  l.mergeSort fun a b => (cmp a b).isLE

/-- Whether a list holds a name, whatever the case of its basic Latin letters. -/
def holdsName (names : List String) (name : String) : Bool :=
  names.any fun n => n.toLower == name.toLower

/-- Adds a name, unless the list holds it in some case. -/
def pushUnique (names : List String) (name : String) : List String :=
  if holdsName names name then names else names ++ [name]

def lastComponent (name : String) : String :=
  String.ofList (name.toList.reverse.takeWhile (· != '.')).reverse

end MigrationAudit
