import MigrationAudit.Facts.Lists
import MigrationAudit.Text.Split

/-!
# File trees

A file tree holds files, links and directories by their places. A path is followed part by part: a
dot stays where it is, two dots lead upward, and a link is replaced by its target.
-/

namespace MigrationAudit

/-- A place in a file tree: the names on the way from the root. -/
abbrev Location := List String

namespace Location

def toPath (l : Location) : String := "/" ++ "/".intercalate l

def relativePath (names : List String) : String := "/".intercalate names

end Location

def pathParts (path : String) : List String := (Text.splitAll '/' path.toList).map String.ofList

/-- The place where a path starts, when it is seen from another place. -/
def pathStart (base : Location) (path : String) : Location :=
  if path.startsWith "/" then [] else base

/-- What a file tree has at a place. A file may tell when it was last changed, in nanoseconds. -/
inductive FileEntry
  | file (content : List UInt8) (modified : Option Int)
  | link (target : String)
  | directory
deriving DecidableEq, Repr

/-- Files, links and directories by their places. The root is always a directory. -/
structure FileTree where
  entries : List (Location × FileEntry) := []
deriving DecidableEq, Repr

/-- Why a path leads nowhere, or not to what is looked for. -/
inductive FileFault
  | notFound
  | occupied
  | notDirectory
  | isDirectory
  | tooManyLinks
  | notText
deriving DecidableEq, Repr

/-- What is wrong with a path, as the system says it. -/
def FileFault.reason : FileFault → String
  | notFound => "No such file or directory (os error 2)"
  | occupied => "File exists (os error 17)"
  | notDirectory => "Not a directory (os error 20)"
  | isDirectory => "Is a directory (os error 21)"
  | tooManyLinks => "Too many levels of symbolic links (os error 40)"
  | notText => "stream did not contain valid UTF-8"

/-- How many links are followed for one path. -/
def maxLinks : Nat := 40

namespace FileTree

def entry? (t : FileTree) : Location → Option FileEntry
  | [] => some .directory
  | l => t.entries.lookup l

def put (t : FileTree) (l : Location) (e : FileEntry) : FileTree :=
  if t.entries.any (·.1 == l) then
    ⟨t.entries.map fun (k, old) => if k == l then (k, e) else (k, old)⟩
  else ⟨t.entries ++ [(l, e)]⟩

def remove (t : FileTree) (l : Location) : FileTree := ⟨t.entries.filter (·.1 != l)⟩

/-- The names in a directory with what they stand for, in the order of the names. -/
def children (t : FileTree) (l : Location) : List (String × FileEntry) :=
  sortBy (compareOn (·.1)) <| t.entries.filterMap fun (k, e) =>
    if k.dropLast == l then k.getLast?.map (·, e) else none

/-- The place that the parts of a path lead to, from the place `l` on. -/
def follow (t : FileTree) (links : Nat) (l : Location) (parts : List String) :
    Except FileFault Location :=
  match parts with
  | [] => .ok l
  | part :: rest =>
    if part == "" || part == "." then t.follow links l rest
    else if part == ".." then t.follow links l.dropLast rest
    else
      match t.entry? (l ++ [part]) with
      | none => .error .notFound
      | some .directory => t.follow links (l ++ [part]) rest
      | some (.file ..) => if rest.isEmpty then .ok (l ++ [part]) else .error .notDirectory
      -- The parts of the target stand in front of what is left of the path.
      | some (.link target) =>
        match links with
        | 0 => .error .tooManyLinks
        | links + 1 => t.follow links (pathStart l target) (pathParts target ++ rest)
termination_by (links, parts.length)

def resolve (t : FileTree) (base : Location) (path : String) : Except FileFault Location :=
  if path == "" then .error .notFound else t.follow maxLinks (pathStart base path) (pathParts path)

def directoryAt? (t : FileTree) (base : Location) (path : String) : Option Location :=
  match t.resolve base path with
  | .ok l => if t.entry? l = some .directory then some l else none
  | .error _ => none

def readText (t : FileTree) (base : Location) (path : String) : Except FileFault String := do
  let l ← t.resolve base path
  match t.entry? l with
  | some (.file content _) =>
    match String.fromUTF8? ⟨content.toArray⟩ with
    | some text => return text
    | none => throw .notText
  | some .directory => throw .isDirectory
  | _ => throw .notFound

/-- Makes the directories that are missing on a path, from the place `l` on. -/
def makeFrom (t : FileTree) (l : Location) : List String → Except FileFault (FileTree × Location)
  | [] => .ok (t, l)
  | part :: rest =>
    if part == "" || part == "." then t.makeFrom l rest
    else if part == ".." then t.makeFrom l.dropLast rest
    else
      let here := l ++ [part]
      match t.entry? here with
      | none => (t.put here .directory).makeFrom here rest
      | some .directory => t.makeFrom here rest
      | some (.file ..) => .error (if rest.isEmpty then .occupied else .notDirectory)
      | some (.link _) =>
        match t.follow maxLinks l [part] with
        | .ok target =>
          if t.entry? target = some .directory then t.makeFrom target rest
          else .error (if rest.isEmpty then .occupied else .notDirectory)
        | .error _ => .error .occupied

def makeDirectories (t : FileTree) (base : Location) (path : String) :
    Except FileFault (FileTree × Location) :=
  t.makeFrom (pathStart base path) (pathParts path)

inductive Change
  | write (l : Location) (e : FileEntry)
  | remove (l : Location)
deriving DecidableEq, Repr

/-- The changes that lead from one tree to another one. -/
def changes (before after : FileTree) : List Change :=
  (after.entries.filter fun (l, e) => before.entries.lookup l != some e).map
      (fun (l, e) => .write l e) ++
    (before.entries.filter fun (l, _) => (after.entries.lookup l).isNone).map fun (l, _) => .remove l

end FileTree

end MigrationAudit
