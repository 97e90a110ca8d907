import MigrationAudit.Java.Prefix
import MigrationAudit.Source.Masked

/-!
# Heads of types

Behind its name a type lists what it extends, implements and permits, and a record lists its
components first.
-/

namespace MigrationAudit.Java

open Text Source

inductive TypeKind
  | classType
  | interfaceType
  | enumType
  | recordType
  | annotationType
deriving DecidableEq, Repr

namespace TypeKind

instance : Tagged TypeKind where
  all := [.classType, .interfaceType, .enumType, .recordType, .annotationType]
  tag
    | .classType => "class"
    | .interfaceType => "interface"
    | .enumType => "enum"
    | .recordType => "record"
    | .annotationType => "annotation"

def ofKeyword? : String → Option TypeKind
  | "class" => some .classType
  | "interface" => some .interfaceType
  | "enum" => some .enumType
  | "record" => some .recordType
  | _ => none

def defaultVisibility : TypeKind → Visibility
  | .interfaceType | .annotationType => .publicAccess
  | _ => .packageAccess

end TypeKind

/-- A parameter: its name and type behind annotations and modifiers. -/
def readParam? (cs : List Char) : Option Param :=
  let (p, c) := readPrefix (Cursor.ofText cs)
  (trailingName? c.after).map fun (type, name) =>
    { name := String.ofList name
      typeName := squashed? type
      modifier := if p.has "final" then some "final" else none }

def parseParams (cs : List Char) : List Param := (splitTopLevel ',' cs).filterMap readParam?

def clauseWords : List String := ["extends", "implements", "permits"]

/-- The clauses of a head, each a keyword with the text up to the next clause. -/
def clauses (cs : List Char) : List (String × List Char) :=
  let starts := (words cs).filter fun w => clauseWords.contains (String.ofList w.text)
  let stops := (starts.drop 1).map (·.start) ++ [width cs]
  List.zipWith (fun w stop => (String.ofList w.text, Span.slice ⟨w.stop, stop⟩ cs)) starts stops

/-- The types named in a clause, without their arguments. -/
def namedTypes (cs : List Char) : List String :=
  (splitTopLevel ',' cs).filterMap fun item => squashed? (before '<' item)

structure Ancestry where
  parent : Option String := none
  interfaces : List String := []
deriving DecidableEq, Repr

namespace Ancestry

/-- Takes in one more clause. Only a class has a parent; what else a type extends are interfaces. -/
def note (kind : TypeKind) (a : Ancestry) (clause : String × List Char) : Ancestry :=
  let items := namedTypes clause.2
  match clause.1, kind with
  | "extends", .classType => ⟨items.head?, a.interfaces ++ items.tail⟩
  | "extends", _ | "implements", _ => { a with interfaces := a.interfaces ++ items }
  | _, _ => a

end Ancestry

structure TypeHead where
  ancestry : Ancestry
  fields : List Field
deriving DecidableEq, Repr

/-- Reads a head, which the text of the cursor must not extend beyond. -/
def TypeHead.read (source : Masked) (kind : TypeKind) (c : Cursor) : TypeHead :=
  -- Type parameters may hold an `extends` of their own.
  let c :=
    match c.skipBlank.after with
    | '<' :: _ =>
      let d := delimited '<' '>' c.skipBlank
      if d.closed then d.behind else c.skipBlank
    | _ => c.skipBlank
  let paren := c.skipBlank
  let (fields, c) : List Field × Cursor :=
    match kind, paren.after with
    | .recordType, '(' :: _ =>
      let d := delimited '(' ')' paren
      if d.closed then
        ((parseParams d.inside.after).map fun p =>
          { name := p.name
            typeName := p.typeName
            visibility := .privateAccess
            line := source.lineAt paren.offset }, d.behind)
      else ([], c)
    | _, _ => ([], c)
  ⟨(clauses c.after).foldl (Ancestry.note kind) {}, fields⟩

end MigrationAudit.Java
