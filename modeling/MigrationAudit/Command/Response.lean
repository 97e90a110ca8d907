import MigrationAudit.Coverage.Exchange
import MigrationAudit.Error
import MigrationAudit.Json.Writer
import MigrationAudit.Plan.Exchange

/-!
# Responses

Every run of the command answers with one tree. Its first field tells whether the run went well.
-/

namespace MigrationAudit

inductive Response
  | facts (root : String) (project : Project)
  | plan (root : String) (diagnosticCount : Nat) (plan : Plan Float)
  | compare (source target : String) (report : CoverageReport Float)
  | storeCleaned (directory : String) (removed : Nat)
  | failed (error : AuditError)

namespace Response

open Json

/-- The fields that every answer begins with. -/
def opening (status : String) : List (String × Json) :=
  [("status", .str status), ("schema_version", .str "1")]

def ofError (e : AuditError) : Json :=
  .obj ([("code", .nat e.kind.code), ("message", .str e.message)] ++ present "path" .str e.inputPath?)

def toJson : Response → Json
  | facts root project =>
    .obj (opening "ok" ++ [("root", .str root), ("facts", project.toJson)])
  | plan root diagnosticCount derived =>
    .obj (opening "ok" ++
      [("root", .str root), ("diagnostic_count", .nat diagnosticCount), ("plan", derived.toJson)])
  | compare source target report =>
    .obj (opening "ok" ++
      [("source_root", .str source), ("target_root", .str target), ("report", report.toJson)])
  | storeCleaned directory removed =>
    .obj (opening "ok" ++ [("cache_dir", .str directory), ("removed", .nat removed)])
  | failed error => .obj (opening "error" ++ [("error", ofError error)])

def text (r : Response) : String := r.toJson.pretty 0 ++ "\n"

def exitCode : Response → Nat
  | failed error => error.kind.code
  | _ => 0

end Response

end MigrationAudit
