import MigrationAudit.Facts.Lists
import MigrationAudit.Pascal.DataAccess
import MigrationAudit.Pascal.Routine
import MigrationAudit.Pascal.RoutineTable
import MigrationAudit.Pascal.Section
import MigrationAudit.Pascal.TypeDecl
import MigrationAudit.Source.Masked
import MigrationAudit.Workspace.Path

/-!
# Pascal units

A unit is read from its masked text: sections, classes, the routines of the interface, the routines
of the implementation, and data access. Nothing makes reading fail; what cannot be read to its end
is noted.
-/

namespace MigrationAudit.Pascal

open Text Source

def spanAt? (spans : List Span) (n : Nat) : Option Span := spans.find? (·.contains n)

/-- What the next word makes of a walk over declarations: skip the type declaration around it, look
at the routine it may start, or go on behind it. -/
inductive WalkStep
  | skipTo (n : Nat)
  | routine
  | other

def walkStep (skipped : List Span) (w : Word) : WalkStep :=
  match spanAt? skipped w.start with
  | some span => .skipTo span.stop
  | none => if (routineKind? w.lower).isSome && isRoutineStart w.first then .routine else .other

def interfaceRoutine (source : Masked) (c : Cursor) (h : Header) (directives : List String) :
    Routine :=
  { h.toRoutine (source.lineAt c.offset) with
    visibility := some .publicAccess
    directives }

theorem length_readDirectives_lt {c : Cursor} {w : Word} (h : c.nextWord? = some w) :
    (readDirectives (pastStatement w.first)).2.after.length < c.after.length := by
  obtain ⟨a, rest, hr, -⟩ := Cursor.ident_of_nextWord? h
  exact Nat.lt_of_le_of_lt (leads_readDirectives _).length_le
    (Nat.lt_of_lt_of_le (length_pastStatement_lt (by simp [hr]))
      (Cursor.leads_nextWord? h).1.length_le)

def interfaceRoutines (source : Masked) (skipped : List Span) (c : Cursor) : List Routine :=
  match _h : c.nextWord? with
  | none => []
  | some w =>
    match walkStep skipped w with
    | .skipTo n => interfaceRoutines source skipped (w.behind.seek n)
    | .other => interfaceRoutines source skipped w.behind
    | .routine =>
      match Header.parse? (statementText w.first) with
      | none => interfaceRoutines source skipped w.behind
      | some h =>
        interfaceRoutine source w.first h (readDirectives (pastStatement w.first)).1 ::
          interfaceRoutines source skipped (readDirectives (pastStatement w.first)).2
termination_by c.after.length
decreasing_by
  · exact Nat.lt_of_le_of_lt (Cursor.leads_seek ..).length_le (Cursor.length_of_nextWord? _h)
  · exact Cursor.length_of_nextWord? _h
  · exact Cursor.length_of_nextWord? _h
  · exact length_readDirectives_lt _h

def lastStop (found : List RoutineNode) : Nat := (found.map (·.stop)).foldl max 0

def implementationRoutines (maxNesting : Nat) (skipped : List Span) (c : Cursor) :
    List RoutineNode :=
  match _h : c.nextWord? with
  | none => []
  | some w =>
    match walkStep skipped w with
    | .skipTo n => implementationRoutines maxNesting skipped (w.behind.seek n)
    | .other => implementationRoutines maxNesting skipped w.behind
    | .routine =>
      -- Where nothing is found, seeking stays where it is, right behind the keyword.
      let found := readRoutines maxNesting ((classPrefix? w.first).getD w.first)
      found ++ implementationRoutines maxNesting skipped (w.behind.seek (lastStop found))
termination_by c.after.length
decreasing_by
  · exact Nat.lt_of_le_of_lt (Cursor.leads_seek ..).length_le (Cursor.length_of_nextWord? _h)
  · exact Cursor.length_of_nextWord? _h
  · exact Nat.lt_of_le_of_lt (Cursor.leads_seek ..).length_le (Cursor.length_of_nextWord? _h)

namespace RoutineNode

mutual

/-- All routines nested in a routine, at every depth, in order. -/
def descendants : RoutineNode → List RoutineNode
  | ⟨_, _, _, _, _, _, _, _, nested⟩ => descendantsOf nested

def descendantsOf : List RoutineNode → List RoutineNode
  | [] => []
  | r :: rest => r :: descendants r ++ descendantsOf rest

end

def toRoutine (source : Masked) (s : ExtractionSettings) (r : RoutineNode) : Routine :=
  let declared := { r.header.toRoutine (source.lineAt r.start) with directives := r.directives }
  let facts :=
    match r.body with
    | some body =>
      let text := body.slice source.code
      { declared with hasBody := true, complexity := complexity text, callHints := callHints text }
    | none => declared
  { facts with isEventHandler := s.isEventHandler facts.name || facts.takesSender }

/-- The notes on a routine: that its body is missing or not closed, and that routines in it are
nested too deep. -/
def diagnostics (path : String) (s : ExtractionSettings) (r : RoutineNode) (facts : Routine) :
    List Diagnostic :=
  let what := if r.body.isSome then "has no terminating end" else "has no body"
  (if r.unterminated then
    [.malformed path s!"routine '{facts.qualifiedName}' {what}" facts.line]
  else []) ++
    if r.nestingCapped then
      [.malformed path
        s!"routine '{facts.qualifiedName}' nests deeper than {s.maxNestingDepth} levels" facts.line]
    else []

def bodyDepth (r : RoutineNode) : Nat := if r.body.isSome then r.maxDepth else 0

end RoutineNode

/-- The free routines and the classes of a unit while the implementations are put in, with the
owners of the text and the notes. -/
structure Assembly where
  classes : List ParsedClass
  free : RoutineTable
  owners : List OwnerSpan := []
  diagnostics : List Diagnostic := []
  maxDepth : Nat := 0

namespace Assembly

def record (a : Assembly) (path : String) (s : ExtractionSettings) (r : RoutineNode) (facts : Routine)
    (name : String) : Assembly :=
  { a with
    owners := a.owners ++ [⟨⟨r.start, r.stop⟩, name⟩]
    diagnostics := a.diagnostics ++ r.diagnostics path s facts
    maxDepth := max a.maxDepth r.bodyDepth }

def addNested (path : String) (source : Masked) (s : ExtractionSettings) (a : Assembly)
    (r : RoutineNode) : Assembly :=
  let facts := r.toRoutine source s
  let a := a.record path s r facts facts.name
  { a with
    free := a.free.push
      { facts with
        visibility := some .privateAccess
        directives := facts.directives ++ ["nested"] } }

/-- The class that a qualified routine belongs to, by the last part of its owner. -/
def classOf? (a : Assembly) (facts : Routine) : Option Nat :=
  facts.owner.bind fun owner =>
    a.classes.findIdx? fun c => c.facts.name.toLower == (lastComponent owner).toLower

def attach (a : Assembly) (facts : Routine) : Assembly :=
  match a.classOf? facts with
  | some i =>
    { a with
      classes := a.classes.modify i fun c =>
        { c with facts := { c.facts with methods := mergeMethod c.facts.methods facts } } }
  | none =>
    -- The class may be declared in another unit; its methods complete no free routine.
    if facts.owner.isSome then { a with free := a.free.push facts }
    else { a with free := a.free.merge facts (some .privateAccess) }

def addTopLevel (path : String) (source : Masked) (s : ExtractionSettings) (a : Assembly)
    (r : RoutineNode) : Assembly :=
  let facts := r.toRoutine source s
  let a := a.record path s r facts facts.qualifiedName
  (r.descendants.foldl (addNested path source s) a).attach facts

end Assembly

/-- The role of a unit: by its classes, then by its file name, then by its header. -/
def unitKind (s : ExtractionSettings) (path : String) (classes : List ClassDecl)
    (header : Option FileKind) : UnitKind :=
  if classes.any (·.isFormLike) then .form
  else if classes.any (·.isDataModule) then .dataModule
  else if Path.hasToken s.serviceFilenameTokens path then .service
  else if Path.hasToken s.utilityFilenameTokens path then .utility
  else if header == some .unit then .plainUnit
  else .unknown

/-- The class, also data-access-like when it owns a statement. -/
def withStatements (ops : List DataOp) (c : ClassDecl) : ClassDecl :=
  let owns := ops.any fun op =>
    op.kind.isSql && op.owner.any fun o => o.toLower.startsWith (c.name.toLower ++ ".")
  { c with isDataAccessLike := c.isDataAccessLike || owns }

def readUnit (s : ExtractionSettings) (path text : String) : SourceUnit :=
  let source := Masked.of .pascal text.toList
  let code := source.code
  let header := FileHeader.find? code
  let sections := Sections.find code (header.elim 0 (·.stop))
  let classes := findClasses source s
  let skipped := classes.map (·.span) ++ findOtherTypes code
  let declared :=
    match sections.interface with
    | some span => interfaceRoutines source skipped (Cursor.within code span.start span.stop)
    | none => []
  let implementation := sections.implementationSpan (width code)
  let parsed :=
    implementationRoutines s.maxNestingDepth skipped
      (Cursor.within code implementation.start implementation.stop)
  let start : Assembly :=
    { classes
      free := declared.foldl RoutineTable.push {}
      diagnostics := classDiagnostics path classes }
  let done := parsed.foldl (Assembly.addTopLevel path source s) start
  let ops :=
    classes.flatMap (·.components) ++
      findCalls source (implementation :: sections.tail.toList) (componentNames code s) done.owners s ++
      findSql source done.owners
  let ops := sortBy (compareOn (·.line)) ops
  let facts := (done.classes.map (·.facts)).map (withStatements ops)
  { name := (header.map (·.name)).getD (Path.unitName path)
    path
    language := .pascal
    kind := unitKind s path facts (header.map (·.kind))
    classes := facts
    routines := done.free.routines.toList
    dependencies := dependencies code sections
    dataOps := ops
    metrics := source.metrics done.maxDepth
    diagnostics := done.diagnostics }

end MigrationAudit.Pascal
