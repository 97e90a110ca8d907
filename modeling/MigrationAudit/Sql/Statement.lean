import MigrationAudit.Facts.Basic
import MigrationAudit.Source.Masked
import MigrationAudit.Text.Case
import MigrationAudit.Text.Identifier
import MigrationAudit.Text.Split

/-!
# Statements in literals

A statement starts in a literal with a leading verb, and goes on in the literals behind it that
start no statement themselves.
-/

namespace MigrationAudit.Sql

open Text Source

/-- The fewest bytes of a statement. -/
def minWidth : Nat := 6

/-- How many further literals a statement may go on in. -/
def continuationLimit : Nat := 5

def verbKind? (verb : String) : Option DataOpKind :=
  match verb with
  | "SELECT" => some .select
  | "INSERT" => some .insert
  | "UPDATE" => some .update
  | "DELETE" => some .delete
  | _ =>
    if ["CREATE", "ALTER", "DROP", "EXEC", "EXECUTE", "MERGE", "TRUNCATE", "CALL"].contains
        verb then
      some .otherSql
    else none

def clauseWords : List String := ["from", "into", "set", "where", "values", "table", "join"]

def lowered (word : List Char) : String := String.ofList (lowerLatin word)

def hasClause (cs : List Char) : Bool :=
  (fields cs).tail.any fun w => clauseWords.contains (lowered w)

/-- The kind of statement that a text starts with. The verb is in upper case, or a clause follows:
so messages such as `Update failed` are no statements. -/
def kindOf? (cs : List Char) : Option DataOpKind :=
  let cs := trim cs
  if width cs < minWidth then none
  else
    -- A parenthesis may follow the verb without white space.
    let verb := cs.takeWhile fun c => !(isBlank c || c == '(')
    let upper := verb.map Char.toUpper
    match verbKind? (String.ofList upper) with
    | some kind => if verb == upper || hasClause cs then some kind else none
    | none => none

/-- The words, in lower case, that a table name follows. -/
def tableWords : List String := ["from", "into", "update"]

def isTableMark (c : Char) : Bool := ['[', ']', '"', '`', ',', ';', '(', ')'].contains c

def tableName? (field : List Char) : Option String :=
  if field.head? == some '(' then none
  else
    let name := trimWhere isTableMark field
    if name.head?.any isIdentStart then some (String.ofList (before '(' name)) else none

/-- The table behind the first `FROM`, `INTO` or `UPDATE`; a query in its place has no name. -/
def tableOf? (cs : List Char) : Option String :=
  match (fields cs).dropWhile fun w => !tableWords.contains (lowered w) with
  | _ :: field :: _ => tableName? field
  | _ => none

/-- A statement: the literal it starts in, by number, its kind, the text of that literal, and the
table it names. -/
structure Statement where
  literalIndex : Nat
  kind : DataOpKind
  fragment : String
  table : Option String
deriving DecidableEq, Repr

/-- The whole text of a statement that starts with `first`, when `later` are the texts of the
literals behind it. -/
def statementText (first : List Char) (later : List (List Char)) : List Char :=
  ((later.take continuationLimit).takeWhile fun v => (kindOf? v).isNone).foldl
    (fun text v => text ++ ' ' :: trim v) (trim first)

/-- The statements in literals with the given texts, the first of which has number `index`. -/
def statementsFrom (index : Nat) : List (List Char) → List Statement
  | [] => []
  | v :: later =>
    let rest := statementsFrom (index + 1) later
    match kindOf? v with
    | some kind =>
      { literalIndex := index
        kind
        fragment := String.ofList (trim v)
        table := tableOf? (statementText v later) } :: rest
    | none => rest

def statements (literals : List Literal) : List Statement :=
  statementsFrom 0 (literals.map (·.value))

end MigrationAudit.Sql
