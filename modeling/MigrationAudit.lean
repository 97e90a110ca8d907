import MigrationAudit.Main
import MigrationAudit.Text.Bracket
import MigrationAudit.Proofs.Coverage.Growth
import MigrationAudit.Proofs.Coverage.SelfCoverage
import MigrationAudit.Proofs.Facts.Assembly
import MigrationAudit.Proofs.Facts.Reassembly
import MigrationAudit.Proofs.Pascal.BodyFacts
import MigrationAudit.Proofs.Pascal.NestedRecords
import MigrationAudit.Proofs.Pascal.RoutineTree
import MigrationAudit.Proofs.Source.Comments
import MigrationAudit.Proofs.Source.Literals
import MigrationAudit.Proofs.Source.Rescan
import MigrationAudit.Proofs.Sorted
import MigrationAudit.Proofs.Workspace.SharedRuns
import MigrationAudit.Proofs.Coverage.UnitOrder
import MigrationAudit.Proofs.Facts.Roles
import MigrationAudit.Proofs.Facts.Naming
import MigrationAudit.Proofs.Plan.Figures
import MigrationAudit.Proofs.Plan.Parts
import MigrationAudit.Proofs.Plan.UnitOrder
import MigrationAudit.Proofs.Facts.Homonyms
import MigrationAudit.Proofs.Facts.Kinds
import MigrationAudit.Proofs.Plan.Accounting
import MigrationAudit.Proofs.Plan.Identifiers
import MigrationAudit.Proofs.Java.Laminar
import MigrationAudit.Proofs.Java.Parentheses
import MigrationAudit.Proofs.Pascal.EarlierClasses
import MigrationAudit.Proofs.Pascal.ClassRoundTrip
import MigrationAudit.Proofs.Java.Queries
import MigrationAudit.Proofs.Pascal.DatasetCalls
import MigrationAudit.Proofs.Pascal.FreeRoutines
import MigrationAudit.Proofs.Pascal.LetterCase
import MigrationAudit.Proofs.Facts.Decoding
import MigrationAudit.Proofs.Java.Attributes
import MigrationAudit.Proofs.Java.ClassRoundTrip
import MigrationAudit.Proofs.Workspace.Lines
import MigrationAudit.Proofs.Store.Cleaning
import MigrationAudit.Proofs.Coverage.Agreement
import MigrationAudit.Proofs.Coverage.Thresholds
import MigrationAudit.Proofs.Source.CountedLines
import MigrationAudit.Proofs.Pascal.NestingLimit
import MigrationAudit.Proofs.Pascal.DirectiveWords
import MigrationAudit.Proofs.Coverage.Percentages
import MigrationAudit.Proofs.Java.NestingDepth
import MigrationAudit.Proofs.Sql.Continuation
import MigrationAudit.Proofs.Sql.Spacing
import MigrationAudit.Proofs.Plan.TargetNames
import MigrationAudit.Proofs.Facts.CalledNames
import MigrationAudit.Proofs.Coverage.Obstacles
import MigrationAudit.Proofs.Settings.Precedence
import MigrationAudit.Proofs.Pascal.SectionOrder
import MigrationAudit.Proofs.Text.Insertion
import MigrationAudit.Proofs.Pascal.Branches
import MigrationAudit.Proofs.Pascal.RoutineIndex
import MigrationAudit.Proofs.Text.TopLevel
