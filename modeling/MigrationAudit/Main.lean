import MigrationAudit.Command.Run
import Std.Time

/-!
# The command

Takes a picture of the part of the file system that an invocation names, runs the invocation on it,
and puts the changes of the store back.
-/

namespace MigrationAudit

def entryAt (l : Location) : IO.FS.DirEntry :=
  { root := Location.toPath l.dropLast, fileName := l.getLast?.getD "" }

/-- The time of the last change of a file, in nanoseconds. -/
def modifiedOf (m : IO.FS.Metadata) : Int := m.modified.sec * 1000000000 + m.modified.nsec.toNat

def placeOf (path : String) : Location := (pathParts path).filter (!·.isEmpty)

def addDirectories (t : FileTree) (l : Location) : FileTree :=
  (List.range l.length).foldl (fun t n => t.put (l.take (n + 1)) .directory) t

/-- Adds a file with its content. One that cannot be read is left out. -/
def addFile (t : FileTree) (l : Location) (m : IO.FS.Metadata) : IO FileTree := do
  try
    let content ← IO.FS.readBinFile (Location.toPath l)
    return t.put l (.file content.toList (some (modifiedOf m)))
  catch _ => return t

/-- Adds everything on the way of a path, and tells where the path leads. -/
def addWay (t : FileTree) (l : Location) : List String → IO (FileTree × Location)
  | [] => return (t, l)
  | part :: rest =>
    if part == "" || part == "." then addWay t l rest
    else if part == ".." then addWay t l.dropLast rest
    else do
      let here := l ++ [part]
      let some m ← try some <$> (entryAt here).path.symlinkMetadata catch _ => pure none
        | return (t, here)
      match m.type with
      | .dir => addWay (t.put here .directory) here rest
      | .file => return (← addFile t here m, here)
      | .symlink =>
        let some target ← try some <$> IO.FS.realPath (Location.toPath here) catch _ => pure none
          | return (t, here)
        let target := placeOf target.toString
        let t := (addDirectories t target).put here (.link (Location.toPath target))
        if rest.isEmpty then
          let isFile := !(← (entryAt target).path.isDir)
          let t ← if isFile then addFile t target (← (entryAt target).path.metadata) else pure t
          return (t, target)
        else addWay t target rest
      | .other => return (t, here)

/-- Adds the files of a directory that satisfy a condition, and those of the directories below it
unless they are ignored. -/
partial def addBelow (t : FileTree) (l : Location) (deep : Bool) (wanted : String → Bool) :
    IO FileTree := do
  let entries ← try (← IO.FS.realPath (Location.toPath l)).readDir catch _ => pure #[]
  entries.foldlM (fun t entry => do
    let here := l ++ [entry.fileName]
    let some m ← try some <$> entry.path.symlinkMetadata catch _ => pure none
      | return t
    match m.type with
    | .dir =>
      let t := t.put here .directory
      if deep && !ignoredNames.contains entry.fileName then addBelow t here deep wanted
      else return t
    | .file => if wanted entry.fileName then addFile t here m else return t
    | _ => return t) t

def Action.directories : Action → List String
  | facts directory => [directory]
  | plan directory => [directory]
  | compare source target => [source, target]
  | cleanStore => []

/-- Adds what is at a path and, if it is a directory, the files in it that are wanted. -/
def addPath (t : FileTree) (base : Location) (path : String) (deep : Bool)
    (wanted : String → Bool) : IO FileTree := do
  let (t, place) ← addWay t (pathStart base path) (pathParts path)
  if t.entry? place = some .directory then addBelow t place deep wanted else return t

def picture (i : Invocation) (base : Location) : IO FileTree := do
  let isSource (name : String) := Language.ofPath name != .unknown
  let t ← i.action.directories.foldlM (fun t path => addPath t base path true isSource)
    (addDirectories {} base)
  let t ← i.options.config.toList.foldlM (fun t path => addPath t base path false fun _ => false) t
  match i.options.storeChoice with
  | .none => return t
  | .directory path => addPath t base path false Store.isEntryName

/-- Makes a change in the file system. Files are written aside and then moved. -/
def FileTree.Change.make : FileTree.Change → IO Unit
  | .write l .directory => IO.FS.createDirAll (Location.toPath l)
  | .write l (.file content _) => do
    let aside := Location.toPath l ++ ".tmp"
    IO.FS.writeBinFile aside ⟨content.toArray⟩
    IO.FS.rename aside (Location.toPath l)
  | .write _ (.link _) => return ()
  | .remove l => IO.FS.removeFile (Location.toPath l)

/-- Whether a change that fails makes the whole run fail. -/
def FileTree.Change.isVital : FileTree.Change → Bool
  | .write _ .directory => true
  | .write .. => false
  | .remove _ => true

/-- Makes changes one after another, up to the first vital one that fails. -/
def makeChanges (choice : StoreChoice) : List FileTree.Change → IO (Option AuditError)
  | [] => return none
  | c :: rest => do
    let failure ← try c.make; pure none catch e => pure (some (toString e))
    match failure, c.isVital, c, choice with
    | some reason, true, .remove l, _ =>
      return some (.entryNotRemoved (Location.toPath l) reason)
    | some reason, true, _, .directory path => return some (.storeNotMade path reason)
    | _, _, _, _ => makeChanges choice rest

def environment : IO (String → Option String) := do
  let names :=
    ["MODERNIZE_COVERAGE_THRESHOLD", "MODERNIZE_MIN_CONFIDENCE", "MODERNIZE_SIMILARITY_FLOOR"]
  let given ← names.filterMapM fun name => return (← IO.getEnv name).map (name, ·)
  return fun name => given.lookup name

def usage : String :=
  String.intercalate "\n"
    ["Usage: modernize [OPTIONS] <COMMAND>", "", "Commands:", "  facts <DIR>", "  plan <DIR>",
      "  compare <SOURCE> <TARGET>", "  cache clean", "", "Options:", "  --config <CONFIG>",
      "  --cache-dir <CACHE_DIR>", "  --no-cache", "  --coverage-threshold <COVERAGE_THRESHOLD>",
      "  --min-confidence <MIN_CONFIDENCE>", "  --similarity-floor <SIMILARITY_FLOOR>",
      "  --log-level <LOG_LEVEL>", ""]

def Invocation.perform (i : Invocation) : IO UInt32 := do
  let base := placeOf (← IO.FS.realPath ".").toString
  let tree ← picture i base
  let clock := Std.Time.WallTime.ofDuration (← Std.Time.Timestamp.now).val
  let now := (Std.Time.PlainDateTime.ofWallTime clock).format "uuuu-MM-dd'T'HH:mm:ss'Z'"
  let (response, after) := i.run { tree, base, environment := ← environment, now }
  let failure ← makeChanges i.options.storeChoice (FileTree.changes tree after)
  let response := failure.elim response Response.failed
  IO.print response.text
  return response.exitCode.toUInt32

end MigrationAudit

open MigrationAudit in
/-- Answers with one tree on standard output, or tells how the command is used. -/
def main (arguments : List String) : IO UInt32 := do
  match Invocation.read arguments with
  | .ok invocation => invocation.perform
  | .error .information => do
    IO.print usage
    return 0
  | .error .usage => do
    IO.eprint usage
    return 2
