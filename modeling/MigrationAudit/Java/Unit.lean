import MigrationAudit.Facts.Lists
import MigrationAudit.Java.Convention
import MigrationAudit.Settings.Basic
import MigrationAudit.Source.Masked
import MigrationAudit.Workspace.Path

/-!
# Java units

A unit is named by its package and its main type: the first public one, or else the first one. Its
types are read from the masked text, and then what conventions tell about them.
-/

namespace MigrationAudit.Java

open Text Source

/-- The cursor behind a word of name characters and the white space that must follow it. -/
def pastKeyword? (keyword : String) (c : Cursor) : Option Cursor :=
  let behind := c.skipWhile isNameChar
  if c.after.takeWhile isNameChar == keyword.toList && behind.after.head?.any isBlank then
    some behind.skipBlank
  else none

/-- The cursor behind a semicolon, when only white space stands before it. -/
def pastSemicolon? (c : Cursor) : Option Cursor :=
  match c.skipBlank.after with
  | ';' :: _ => some c.skipBlank.next
  | _ => none

/-- A dotted name that a semicolon follows, with the cursor behind that. The name may end in an
asterisk where `starred` says so. -/
def dottedStatement? (starred : Bool) (c : Cursor) : Option (String × Cursor) :=
  let isPart (a : Char) := isNameChar a || a == '.'
  let name := c.after.takeWhile isPart
  let behind := c.skipWhile isPart
  if name.isEmpty then none
  else
    match pastSemicolon? behind with
    | some d => some (String.ofList name, d)
    | none =>
      if starred && behind.after.head? == some '*' && 2 ≤ name.length
          && name.getLast? == some '.' then
        (pastSemicolon? behind.next).map fun d => (String.ofList (name ++ ['*']), d)
      else none

def packageHere? (c : Cursor) : Option (String × Cursor) :=
  if c.atLineStart then (pastKeyword? "package" c.skipBlank).bind (dottedStatement? false) else none

/-- The import that a line at the cursor declares. The word `static` is part of it only in front of
a name. -/
def importHere? (c : Cursor) : Option (String × Cursor) :=
  if c.atLineStart then
    (pastKeyword? "import" c.skipBlank).bind fun c =>
      match (pastKeyword? "static" c).bind (dottedStatement? true) with
      | some found => some found
      | none => dottedStatement? true c
  else none

def package? (code : List Char) : Option String :=
  ((Cursor.places code).findSome? packageHere?).map (·.1)

/-- The imports of a file, each once. -/
def imports (code : List Char) : List Dependency :=
  ((allMatches importHere? code).map (·.value)).foldl
    (fun found name =>
      if found.any (·.name == name) then found else found ++ [⟨name, .importClause⟩])
    []

def mainType? (types : List ParsedType) : Option ParsedType :=
  let top := types.filter (·.topLevel)
  match top.find? fun t => t.modifiers.contains "public" with
  | some t => some t
  | none => top.head?

def unitName (path : String) (package : Option String) (types : List ParsedType) : String :=
  match mainType? types with
  | some t => package.elim t.name (· ++ "." ++ t.name)
  | none => Path.unitName path

/-- What conventions tell about a type: its facts, its data access, the literals of its queries, and
what text it and its methods own. -/
structure TypeReading where
  facts : ClassDecl
  ops : List DataOp
  queried : List Nat
  owners : List OwnerSpan

structure MethodReading where
  routine : Routine
  query : Option Query
  owner : OwnerSpan

namespace MethodReading

def of (source : Masked) (owner : String) (base : Option (List Char)) (m : ParsedMethod) :
    MethodReading :=
  { routine := { m.routine with endpoint := endpoint? source base m.annotations }
    query := query? source m.annotations
    owner := ⟨m.span, owner ++ "." ++ m.routine.name⟩ }

def op? (m : MethodReading) : Option DataOp :=
  m.query.map fun q =>
    { kind := q.kind
      raw := q.text
      table := q.table
      owner := some m.owner.name
      line := m.routine.line }

end MethodReading

def StoredEntity.op (e : StoredEntity) (t : ParsedType) : DataOp :=
  { kind := .repository
    raw := e.raw
    componentType := some e.entity
    owner := some t.name
    line := t.line }

def TypeReading.of (source : Masked) (t : ParsedType) : TypeReading :=
  let methods := t.methods.map (MethodReading.of source t.name (basePath? source t))
  let stereotype := stereotype? source.code t
  let stored := (storedEntity? (t.header.slice source.code)).map (·.op t)
  { facts :=
      { t.facts with
        stereotype
        table := tableName? source t
        isDataAccessLike := stereotype == some .repository || stereotype == some .entity
        methods := methods.map (·.routine) }
    ops := stored.toList ++ methods.filterMap (·.op?)
    queried := methods.filterMap fun m => m.query.map (·.literalIndex)
    owners := ⟨t.span, t.name⟩ :: methods.map (·.owner) }

/-- The statements in literals that belong to no query. -/
def looseStatements (source : Masked) (queried : List Nat) (owners : List OwnerSpan) :
    List DataOp :=
  ((Sql.statements source.literals).filter fun s => !queried.contains s.literalIndex).filterMap
    fun statement =>
      source.literals[statement.literalIndex]?.map fun literal =>
        { kind := statement.kind
          raw := statement.fragment
          table := statement.table
          owner := ownerAt? owners literal.span.start
          line := source.lineAt literal.span.start }

/-- The class, also data-access-like when it or one of its methods owns an operation. -/
def withOperations (ops : List DataOp) (c : ClassDecl) : ClassDecl :=
  let owns := ops.any fun op => op.owner.any fun o => o == c.name || o.startsWith (c.name ++ ".")
  { c with isDataAccessLike := c.isDataAccessLike || owns }

/-- The greatest depth of braces in a text, when `depth` are open. -/
def braceDepth (depth : Nat) : List Char → Nat
  | [] => depth
  | c :: cs =>
    if c == '\x7b' then braceDepth (depth + 1) cs
    else if c == '\x7d' then max depth (braceDepth (depth - 1) cs)
    else braceDepth depth cs

/-- The role of a unit: by its file name, or else by what it holds. -/
def unitKind (s : ExtractionSettings) (path : String) (isDeclared : Bool) : UnitKind :=
  if Path.hasToken s.serviceFilenameTokens path then .service
  else if Path.hasToken s.utilityFilenameTokens path then .utility
  else if isDeclared then .plainUnit
  else .unknown

def readUnit (s : ExtractionSettings) (path text : String) : SourceUnit :=
  let source := Masked.of .java text.toList
  let code := source.code
  let package := package? code
  let (types, diagnostics) := readTypes source path s.maxNestingDepth
  let readings := types.map (TypeReading.of source)
  let owners := readings.flatMap (·.owners)
  let ops :=
    readings.flatMap (·.ops) ++ looseStatements source (readings.flatMap (·.queried)) owners
  let ops := sortBy (compareOn (·.line)) ops
  { name := unitName path package types
    path
    language := .java
    kind := unitKind s path (package.isSome || !types.isEmpty)
    classes := (readings.map (·.facts)).map (withOperations ops)
    dependencies := imports code
    dataOps := ops
    metrics := source.metrics (braceDepth 0 code)
    diagnostics }

end MigrationAudit.Java
