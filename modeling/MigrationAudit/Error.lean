import MigrationAudit.Coverage.Report
import MigrationAudit.Decimal.Layout
import MigrationAudit.Text.Unprinted

/-!
# Errors

Why an operation as a whole fails. A file that cannot be read and a construct that is not understood
are no errors; they are noted as diagnostics.
-/

namespace MigrationAudit

inductive ErrorKind
  | invalidArguments
  | inputError
  | precondition
  | cache
deriving DecidableEq, Repr

namespace ErrorKind

instance : Tagged ErrorKind where
  all := [.invalidArguments, .inputError, .precondition, .cache]
  tag
    | .invalidArguments => "invalid_arguments"
    | .inputError => "input_error"
    | .precondition => "precondition"
    | .cache => "cache"

/-- The exit status of a command that ends with an error of a class. -/
def code : ErrorKind → Nat
  | .invalidArguments => 2
  | .inputError => 3
  | .precondition => 4
  | .cache => 10

end ErrorKind

inductive AuditError
  | facts (role : ProjectRole) (fault : FactsFault)
  | nothingToCompare
  | threshold (fault : ThresholdFault Float)
  | unreadableConfig (path reason : String)
  | malformedConfig (path : String)
  | notANumber (name value : String)
  | badPattern (pattern : String)
  | badRoot (path : String)
  | storeNotMade (path reason : String)
  | entryNotRemoved (path reason : String)
deriving DecidableEq, Repr

namespace AuditError

def kind : AuditError → ErrorKind
  | facts .. | nothingToCompare => .precondition
  | threshold _ | unreadableConfig .. | malformedConfig _ | notANumber .. | badPattern _ =>
    .invalidArguments
  | badRoot _ => .inputError
  | storeNotMade .. | entryNotRemoved .. => .cache

/-- What went wrong, without the class of the error. -/
def detail : AuditError → String
  | facts role fault => fault.message role
  | nothingToCompare => "source project has no routines or classes to compare"
  | threshold f => s!"{f.name} must be within 0..={f.bound}, got {Decimal.plain f.value}"
  | unreadableConfig path reason => s!"cannot read config {path}: {reason}"
  | malformedConfig path => s!"malformed config {path}"
  | notANumber name value => s!"{name} is not a number: {Text.quoted value}"
  | badPattern pattern => s!"invalid exclude pattern '{pattern}'"
  | badRoot _ => "not a readable directory"
  | storeNotMade path reason => s!"cannot create {path}: {reason}"
  | entryNotRemoved path reason => s!"cannot remove {path}: {reason}"

def inputPath? : AuditError → Option String
  | badRoot path => some path
  | _ => none

def message (e : AuditError) : String :=
  let path := e.inputPath?.getD ""
  match e.kind with
  | .invalidArguments => s!"invalid arguments: {e.detail}"
  | .inputError => s!"input error at {path}: {e.detail}"
  | .precondition => s!"precondition failed: {e.detail}"
  | .cache => s!"cache error: {e.detail}"

def ofCompareFault : CompareFault Float → AuditError
  | .facts role fault => .facts role fault
  | .threshold fault => .threshold fault
  | .nothingToCompare => .nothingToCompare

end AuditError

end MigrationAudit
