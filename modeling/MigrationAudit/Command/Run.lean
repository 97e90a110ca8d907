import MigrationAudit.Command.Arguments
import MigrationAudit.Command.Response
import MigrationAudit.Workspace.Analysis

/-!
# Runs of the command

A run reads directories of a file tree and keeps the facts of their files in a store, which is a
directory of the same tree. It answers, and leaves a tree behind.
-/

namespace MigrationAudit

/-- What a run finds around it: a file tree, the directory it starts in, the variables of the
environment and the time. -/
structure Surroundings where
  tree : FileTree
  base : Location
  environment : String → Option String
  now : String

/-- Where the facts of files are kept, if they are. -/
inductive StoreChoice
  | none
  | directory (path : String)
deriving DecidableEq, Repr

def Options.storeChoice (o : Options) : StoreChoice :=
  if o.noStore then .none else .directory (o.storeDirectory.getD ".modernize-cache")

def pathIn (directory name : String) : String :=
  if directory.endsWith "/" then directory ++ name else directory ++ "/" ++ name

namespace FileTree

/-- Makes the directory of a store, if it is missing, and tells where it is. -/
def makeStore (t : FileTree) (base : Location) (path : String) :
    Except AuditError (FileTree × Location) :=
  match t.makeDirectories base path with
  | .ok made => .ok made
  | .error fault => .error (.storeNotMade path fault.reason)

/-- The texts of the files in a directory. A link counts as the file that it leads to, and as an
empty one if it leads to none. -/
def textsIn (t : FileTree) (l : Location) : List (String × String) :=
  (t.children l).filterMap fun (name, entry) =>
    match entry with
    | .directory => none
    | _ => some (name, (t.readText l name).toOption.getD "")

def storeAt (t : FileTree) (l : Location) (fingerprint : String) : Store :=
  { digest := Sha256.hex, fingerprint, files := t.textsIn l }

/-- The tree with the files that a store has written to its directory. A file is not written over a
directory. -/
def withStore (t : FileTree) (l : Location) (before after : Store) : FileTree :=
  let written := after.files.filter fun (name, text) =>
    before.files.lookup name != some text && t.entry? (l ++ [name]) != some .directory
  written.foldl (fun t (name, text) => t.put (l ++ [name]) (.file (bytesOf text) none)) t

/-- What a directory lists as entries of a store, in the order of the names. -/
def entriesIn (t : FileTree) (l : Location) : List (String × FileEntry) :=
  (t.children l).filter fun f => Store.isEntryName f.1

/-- Removes what is listed from the directory `l`, up to the first directory in the list, which
cannot be removed, and tells its name. -/
def removeListed (t : FileTree) (l : Location) : List (String × FileEntry) → FileTree × Option String
  | [] => (t, none)
  | (name, .directory) :: _ => (t, some name)
  | (name, _) :: rest => (t.remove (l ++ [name])).removeListed l rest

end FileTree

def Surroundings.settings (s : Surroundings) (o : Options) : Except AuditError AuditSettings :=
  let file := o.config.map fun path =>
    ({ path
       text := (s.tree.readText s.base path).mapError FileFault.reason } : SettingsFile)
  LayeredSettings.effective <$> LayeredSettings.resolve file s.environment o.thresholds

/-- What a run works on while its tree changes. -/
abbrev RunM := ExceptT AuditError (StateM FileTree)

namespace RunM

@[simp] theorem run_bind {α β : Type} (m : RunM α) (f : α → RunM β) (t : FileTree) :
    (m >>= f).run t =
      match m.run t with
      | (.ok a, t') => (f a).run t'
      | (.error e, t') => (.error e, t') := by
  rw [ExceptT.run_bind]
  simp only [bind, StateT.bind]
  cases m.run t with
  | mk r t' => cases r <;> rfl

@[simp] theorem run_get (t : FileTree) : (get : RunM FileTree).run t = (.ok t, t) := rfl

@[simp] theorem run_set (t t' : FileTree) : (set t' : RunM PUnit).run t = (.ok ⟨⟩, t') := rfl

@[simp] theorem run_liftM {α : Type} (e : Except AuditError α) (t : FileTree) :
    (liftM e : RunM α).run t = (e, t) := by
  cases e <;> rfl

variable (s : Surroundings) (settings : AuditSettings)

/-- The project in a directory. The store is made before the directory is looked at. -/
def project (choice : StoreChoice) (root : String) : RunM Project := do
  let sources (t : FileTree) := Sources.load t s.base root {}
  match choice with
  | .none => return (← sources (← get)).toProject settings.extraction
  | .directory path =>
    let (tree, place) ← (← get).makeStore s.base path
    set tree
    let store := tree.storeAt place settings.extraction.fingerprint
    let (project, after) := (← sources tree).toProjectWith settings.extraction s.now store
    set (tree.withStore place store after)
    return project

/-- Removes the entries of the store one by one. What is listed behind one that cannot be removed
stays. -/
def clean : StoreChoice → RunM Response
  | .none => return .storeCleaned "" 0
  | .directory path => do
    let (tree, place) ← (← get).makeStore s.base path
    let entries := tree.entriesIn place
    let (left, stuck) := tree.removeListed place entries
    set left
    match stuck with
    | some name => throw (.entryNotRemoved (pathIn path name) FileFault.isDirectory.reason)
    | none => return .storeCleaned path entries.length

def act (choice : StoreChoice) : Action → RunM Response
  | .facts directory => return .facts directory (← project s settings choice directory)
  | .plan directory => do
    let project ← project s settings choice directory
    match Plan.derive project settings.planning with
    | .ok plan => return .plan directory project.diagnostics.length plan
    | .error fault => throw (.facts .source fault)
  | .compare source target => do
    let before ← project s settings choice source
    let after ← project s settings choice target
    match CoverageReport.compare before after settings.comparison with
    | .ok report => return .compare source target report
    | .error fault => throw (.ofCompareFault fault)
  | .cleanStore => clean s choice

end RunM

/-- Runs an invocation, and tells what it answers and what it leaves behind. -/
def Invocation.run (i : Invocation) (s : Surroundings) : Response × FileTree :=
  match s.settings i.options with
  | .error error => (.failed error, s.tree)
  | .ok settings =>
    match (RunM.act s settings i.options.storeChoice i.action).run s.tree with
    | (.ok response, tree) => (response, tree)
    | (.error error, tree) => (.failed error, tree)

end MigrationAudit
