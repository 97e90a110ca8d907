import MigrationAudit.Digest.Sha256
import MigrationAudit.Facts.Project
import MigrationAudit.Java.Unit
import MigrationAudit.Pascal.Unit
import MigrationAudit.Settings.Exchange
import MigrationAudit.Store.Basic
import MigrationAudit.Workspace.Sources

/-!
# Analysis of a directory

A file is read by the rules of the language that its extension tells, and the units of all files
make a project. The source files of a directory are read one by one, with a store or without. The
key of a file in the store is its place in the file tree, so that projects can share a store.
-/

namespace MigrationAudit

/-! ## Units -/

/-- The unit of a file whose language is not known. -/
def unreadUnit (path : String) : SourceUnit :=
  { name := Path.unitName path
    path
    language := .unknown
    diagnostics := [{ path, kind := .inputError, reason := "unsupported file type" }] }

def readUnit (s : ExtractionSettings) (path text : String) : SourceUnit :=
  match Language.ofPath path with
  | .pascal => Pascal.readUnit s path text
  | .java => Java.readUnit s path text
  | .unknown => unreadUnit path

theorem path_readUnit (s : ExtractionSettings) (path text : String) :
    (readUnit s path text).path = path := by
  unfold readUnit
  split <;> rfl

def readProject (s : ExtractionSettings) (files : List (String × String)) : Project :=
  .assemble (files.map fun (path, text) => readUnit s path text) []

/-! ## Projects of directories -/

/-- The fingerprint of settings of extraction: the digest of their text. -/
def ExtractionSettings.fingerprint (s : ExtractionSettings) : String := Sha256.hex s.toJson.compact

namespace Sources

def storePath (s : Sources) (f : SourceFile) : String :=
  Location.toPath (s.root ++ pathParts f.path)

def readStored (s : Sources) (settings : ExtractionSettings) (now : String) :
    List SourceFile → Store → List SourceUnit × Store
  | [], store => ([], store)
  | f :: rest, store =>
    let (unit, store) := store.getOrExtract (s.storePath f) f.modified now fun _ =>
      readUnit settings f.path f.text
    let (units, store) := s.readStored settings now rest store
    (unit :: units, store)

def toProject (s : Sources) (settings : ExtractionSettings) : Project :=
  .assemble (s.files.map fun f => readUnit settings f.path f.text) s.diagnostics

def toProjectWith (s : Sources) (settings : ExtractionSettings) (now : String) (store : Store) :
    Project × Store :=
  let (units, store) := s.readStored settings now s.files store
  (.assemble units s.diagnostics, store)

end Sources

end MigrationAudit
