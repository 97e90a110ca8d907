import MigrationAudit.Facts.Exchange
import MigrationAudit.Json.Reader
import MigrationAudit.Json.Writer
import MigrationAudit.Workspace.Path

/-!
# Stores

The facts of one file are stored together with all that they depend on: the path of the file, the
time of its last change and the fingerprint of the settings. A store keeps them in the files of one
directory, each under a name that a digest of its key gives. What does not decode, and what was
stored under another key, is never handed out.
-/

namespace MigrationAudit

/-! ## Entries -/

/-- What the facts of a file depend on. The time counts nanoseconds. -/
structure StoreKey where
  path : String
  modified : Nat
  fingerprint : String
deriving DecidableEq, Repr

structure StoreEntry where
  schemaVersion : Nat
  key : StoreKey
  storedAt : String
  unit : SourceUnit
deriving DecidableEq, Repr

namespace StoreKey

/-- The text that tells keys apart. -/
def text (k : StoreKey) : String := s!"{k.path}\x00{k.modified}\x00{k.fingerprint}"

def fileName (digest : String → String) (k : StoreKey) : String := digest k.text ++ ".json"

end StoreKey

namespace StoreEntry

open Json

def toJson (e : StoreEntry) : Json :=
  .obj [("schema_version", .nat e.schemaVersion), ("path", .str e.key.path),
    ("mtime_nanos", .nat e.key.modified), ("fingerprint", .str e.key.fingerprint),
    ("cached_at", .str e.storedAt), ("unit", e.unit.toJson)]

def ofJson? (j : Json) : Option StoreEntry := do
  let j := j.record ["schema_version", "path", "mtime_nanos", "fingerprint", "cached_at", "unit"]
  some
    { schemaVersion := ← j.field? "schema_version" asNat32?
      key :=
        { path := ← j.field? "path" asString?
          modified := ← j.field? "mtime_nanos" (asNat? 128)
          fingerprint := ← j.field? "fingerprint" asString? }
      storedAt := ← j.field? "cached_at" asString?
      unit := ← j.field? "unit" SourceUnit.ofJson? }

def write (e : StoreEntry) : String := e.toJson.compact

def read? (text : String) : Option StoreEntry := (Json.tree? text).bind ofJson?

def answers (e : StoreEntry) (k : StoreKey) : Bool :=
  e.schemaVersion == MigrationAudit.schemaVersion && e.key == k

end StoreEntry

/-! ## Directories -/

/-- A directory of stored facts, its files by their names, as it is seen under one fingerprint. -/
structure Store where
  digest : String → String
  fingerprint : String
  files : List (String × String)

namespace Store

/-- The time of a change as it is stored: a time before the epoch counts as the epoch. -/
def timeOf (modified : Int) : Nat := modified.toNat

def keyOf (s : Store) (path : String) (modified : Int) : StoreKey :=
  ⟨path, timeOf modified, s.fingerprint⟩

def writeFile (s : Store) (name text : String) : Store :=
  { s with files := (name, text) :: s.files.filter (·.1 != name) }

def get? (s : Store) (path : String) (modified : Int) : Option SourceUnit := do
  let key := s.keyOf path modified
  let text ← s.files.lookup (key.fileName s.digest)
  let entry ← StoreEntry.read? text
  -- Two keys may share a file name, so the name alone does not tell.
  if entry.answers key then some entry.unit else none

def put (s : Store) (path : String) (modified : Int) (storedAt : String) (unit : SourceUnit) :
    Store :=
  let key := s.keyOf path modified
  let entry : StoreEntry := { schemaVersion := MigrationAudit.schemaVersion, key, storedAt, unit }
  s.writeFile (key.fileName s.digest) entry.write

/-- The facts stored for a file, or else those that are extracted now, which are then stored.
Without a time nothing is stored. -/
def getOrExtract (s : Store) (path : String) (modified : Option Int) (storedAt : String)
    (extract : Unit → SourceUnit) : SourceUnit × Store :=
  match modified with
  | none => (extract (), s)
  | some time =>
    match s.get? path time with
    | some unit => (unit, s)
    | none =>
      let unit := extract ()
      (unit, s.put path time storedAt unit)

/-- Whether a file of the directory counts as an entry: its extension tells. -/
def isEntryName (name : String) : Bool := Path.extension? name == some "json"

def size (s : Store) : Nat := s.files.countP fun f => isEntryName f.1

def clean (s : Store) : Store := { s with files := s.files.filter fun f => !isEntryName f.1 }

def fileNames (s : Store) : List String := sortBy compare (s.files.map (·.1))

end Store

end MigrationAudit
