import MigrationAudit.Facts.Basic
import MigrationAudit.Text.Split

/-!
# Paths

The last part of a path, its name and its extension, and the language that the extension tells.
-/

namespace MigrationAudit

namespace Path

/-- The last part of a path that is not empty and not a single dot, unless it leads upward. -/
def fileName? (path : String) : Option (List Char) :=
  match ((Text.splitAll '/' path.toList).filter fun p => !(p.isEmpty || p == ['.'])).getLast? with
  | some name => if name == ['.', '.'] then none else some name
  | none => none

/-- The file name cut at its last dot; a dot at its start is part of the name. -/
def splitName (name : List Char) : List Char × Option (List Char) :=
  match Text.splitLast? '.' name with
  | some ([], _) => (name, none)
  | some (stem, extension) => (stem, some extension)
  | none => (name, none)

def stem? (path : String) : Option String :=
  (fileName? path).map fun n => String.ofList (splitName n).1

def extension? (path : String) : Option String :=
  (fileName? path).bind fun n => (splitName n).2.map String.ofList

/-- The name of a unit that does not name itself. -/
def unitName (path : String) : String :=
  match stem? path with
  | some "" => "unnamed"
  | some stem => stem
  | none => "unnamed"

/-- Whether the file name, up to its extension, holds one of the tokens in any case. -/
def hasToken (tokens : List String) (path : String) : Bool :=
  tokens.any fun t => Text.occursIn t.toLower.toList ((stem? path).getD "").toLower.toList

end Path

namespace Language

def extensions : Language → List String
  | .pascal => ["pas", "dpr", "dpk", "lpr", "pp"]
  | .java => ["java"]
  | .unknown => []

/-- The language that the extension of a path tells, in any case. -/
def ofPath (path : String) : Language :=
  match Path.extension? path with
  | some e =>
    if Language.pascal.extensions.contains e.toLower then .pascal
    else if Language.java.extensions.contains e.toLower then .java
    else .unknown
  | none => .unknown

end Language

end MigrationAudit
