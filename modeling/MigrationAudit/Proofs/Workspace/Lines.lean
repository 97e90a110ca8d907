import MigrationAudit.Proofs.Java.Lines
import MigrationAudit.Proofs.Pascal.Lines

/-!
# Lines of units

What is recorded of a file can be looked up in it, whichever language the file is read in.
-/

namespace MigrationAudit

/-- All that is recorded of a unit stands on lines of its text that are counted, its operations in
the order of their lines, and every line is counted once. -/
theorem recorded_lines_counted (s : ExtractionSettings) (path text : String) :
    (Pascal.readUnit s path text).KeepsLines ∧ (Java.readUnit s path text).KeepsLines :=
  ⟨Pascal.keepsLines_readUnit s path text, Java.keepsLines_readUnit s path text⟩

end MigrationAudit
