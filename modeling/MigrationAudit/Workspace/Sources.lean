import MigrationAudit.Error
import MigrationAudit.Text.Utf8
import MigrationAudit.Workspace.FileTree
import MigrationAudit.Workspace.Path
import MigrationAudit.Workspace.Pattern

/-!
# Sources

The source files below a directory are taken out of a file tree, in the order of their paths.
Directories of version control and of builds are left out, and so is whatever a pattern excludes. A
link that leads nowhere, or back to a directory that is being walked, is noted and passed over.
-/

namespace MigrationAudit

/-- A source file. Its path starts at the root of its project. -/
structure SourceFile where
  path : String
  text : String
  language : Language
  size : Nat
  modified : Option Int
deriving DecidableEq, Repr

/-- Which files are taken. No language at all stands for every language. -/
structure SourceFilter where
  languages : List Language := []
  excluded : List String := []
  maxSize : Option Nat := none
  followLinks : Bool := false
deriving DecidableEq, Repr

structure Sources where
  root : Location
  files : List SourceFile
  diagnostics : List Diagnostic
deriving DecidableEq, Repr

def ignoredNames : List String :=
  [".git", ".hg", ".svn", "__history", "__recovery", "node_modules", "target", "build", "dist", "out",
    ".idea", ".vscode", ".gradle", ".mvn", "Win32", "Win64", ".modernize-cache"]

def SourceFilter.accepts (f : SourceFilter) (l : Language) : Bool :=
  l != .unknown && (f.languages.isEmpty || f.languages.contains l)

/-- The patterns of a filter; the first text that is no pattern is an error. -/
def SourceFilter.patterns (f : SourceFilter) : Except AuditError (List Pattern) :=
  f.excluded.mapM fun text =>
    match Pattern.read? text with
    | some p => .ok p
    | none => .error (.badPattern text)

/-- What a walk comes upon: a file, or a link that cannot be followed. -/
inductive Visit
  | file (path : String) (content : List UInt8) (modified : Option Int)
  | fault (path reason : String)
deriving DecidableEq, Repr

/-- A directory that is being walked: where it is, and the path on which it was reached. -/
structure WalkedDirectory where
  place : Location
  path : Location
deriving DecidableEq, Repr

namespace FileTree

/-- What a walk comes upon in a directory and below it, where `walked` holds the directories on the
way, the directory itself first, and `names` leads there from the root. A walk is at most `depth`
directories deep. -/
def walk (t : FileTree) (followLinks : Bool) (root : Location) (depth : Nat)
    (walked : List WalkedDirectory) (names : List String) : List Visit :=
  match depth, walked with
  | depth + 1, here :: _ =>
    (t.children here.place).flatMap fun (name, entry) =>
      let names := names ++ [name]
      let path := Location.relativePath names
      let shown := Location.toPath (root ++ names)
      let enter (place : Location) :=
        if ignoredNames.contains name then []
        else t.walk followLinks root depth (⟨place, root ++ names⟩ :: walked) names
      let take (content : List UInt8) (modified : Option Int) :=
        if ignoredNames.contains name then [] else [Visit.file path content modified]
      match entry with
      | .file content modified => take content modified
      | .directory => enter (here.place ++ [name])
      | .link _ =>
        if !followLinks then []
        else
          match t.follow maxLinks here.place [name] with
          | .error fault => [.fault path s!"IO error for operation on {shown}: {fault.reason}"]
          | .ok place =>
            match t.entry? place with
            | some (.file content modified) => take content modified
            | _ =>
              -- A link to a directory on the way would be walked again and again.
              match walked.find? (·.place == place) with
              | some ancestor =>
                let up := Location.toPath ancestor.path
                [.fault path s!"File system loop found: {shown} points to an ancestor {up}"]
              | none => enter place
  | _, _ => []

/-- No walk is deeper. Each link that is followed on the way leads to another directory, and below
it there are no more levels than places. -/
def walkDepth (t : FileTree) : Nat := (t.entries.length + 1) * (t.entries.length + 1)

end FileTree

namespace Sources

def take? (f : SourceFilter) (patterns : List Pattern) : Visit → Option SourceFile
  | .fault .. => none
  | .file path content modified =>
    let language := Language.ofPath path
    if !f.accepts language || patterns.any (·.isMatch path) then none
    else if f.maxSize.any (· < content.length) then none
    else
      some
        { path
          text := String.ofList (Text.decodeFile content)
          language
          size := content.length
          modified }

def note? : Visit → Option Diagnostic
  | .file .. => none
  | .fault path reason => some { path, kind := .inputError, reason }

/-- Loads the source files below a directory, which is named as seen from `base`. -/
def load (t : FileTree) (base : Location) (root : String) (f : SourceFilter) :
    Except AuditError Sources := do
  match t.directoryAt? base root with
  | none => throw (.badRoot root)
  | some place =>
    let patterns ← f.patterns
    let visits := t.walk f.followLinks place t.walkDepth [⟨place, place⟩] []
    return {
      root := place
      files := sortBy (compareOn (·.path)) (visits.filterMap (take? f patterns))
      diagnostics := visits.filterMap note? }

end Sources

end MigrationAudit
