import MigrationAudit.Pascal.Header
import MigrationAudit.Settings.Basic
import MigrationAudit.Source.Masked
import MigrationAudit.Sql.Statement

/-!
# Data access

Calls on dataset components, calls that control transactions, and statements in literals, each with
the routine around it.
-/

namespace MigrationAudit.Pascal

open Text Source

/-- Methods that count as data access on any receiver. -/
def alwaysDataMethods : List String := ["ExecSQL", "ExecProc", "ApplyUpdates"]

/-- The name and the type of the declaration at the cursor, when the type is a single word that
starts with a capital T. -/
def typedName? (c : Cursor) : Option (List Char × List Char) :=
  let name := c.after.takeWhile isNameChar
  if !(c.atRunStart isNameChar && name.head?.any fun a => a.isAlpha || a == '_') then none
  else
    match (c.skipWhile isNameChar).skipBlank.after with
    | ':' :: rest =>
      let rest := trimStart rest
      let type := rest.takeWhile isNameChar
      let closed := match trimStart (rest.dropWhile isNameChar) with
        | a :: _ => a == ';' || a == ')' || a == '='
        | [] => false
      if type.head? == some 'T' && 2 ≤ type.length && closed then some (name, type) else none
    | _ => none

/-- The lower-case names of all variables and fields of a text that are dataset components. -/
def componentNames (code : List Char) (s : ExtractionSettings) : List String :=
  (((Cursor.places code).filterMap typedName?).filter fun (_, type) =>
    s.isDatasetComponent (String.ofList type)).map fun (name, _) => lowered name

/-- The word in front of the dot that stands before the cursor. -/
def receiver? (c : Cursor) : Option (List Char) :=
  match c.before.dropWhile isBlank with
  | '.' :: before =>
    match (before.dropWhile isBlank).takeWhile isIdent with
    | [] => none
    | name => some name.reverse
  | _ => none

/-- The kind of data access that calling a method on a receiver is. -/
def callKind? (s : ExtractionSettings) (components : List String) (receiver method : String) :
    Option DataOpKind :=
  if holdsName s.transactionMethods method then some .transaction
  else if holdsName s.datasetMethods method &&
      (components.contains receiver.toLower || holdsName alwaysDataMethods method) then
    some .datasetCall
  else none

def findCalls (source : Masked) (regions : List Span) (components : List String)
    (owners : List OwnerSpan) (s : ExtractionSettings) : List DataOp :=
  regions.flatMap fun region =>
    (Cursor.within source.code region.start region.stop).words.filterMap fun w => do
      let receiver ← receiver? w.first
      let receiver := String.ofList receiver
      let method := String.ofList w.text
      let kind ← callKind? s components receiver method
      some
        { kind
          raw := receiver ++ "." ++ method
          owner := ownerAt? owners w.start
          line := source.lineAt w.start }

def findSql (source : Masked) (owners : List OwnerSpan) : List DataOp :=
  (Sql.statements source.literals).filterMap fun statement =>
    source.literals[statement.literalIndex]?.map fun literal =>
      { kind := statement.kind
        raw := statement.fragment
        table := statement.table
        owner := ownerAt? owners literal.span.start
        line := source.lineAt literal.span.start }

end MigrationAudit.Pascal
