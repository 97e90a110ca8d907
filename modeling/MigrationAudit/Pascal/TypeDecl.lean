import MigrationAudit.Pascal.Member
import MigrationAudit.Text.Block

/-!
# Type declarations

A type declaration starts with a name, an equals sign and a keyword, with `packed` in front of it if
need be; keywords are compared with folded case. A class runs from its introducer to the `end` that
closes it. A class that is not closed keeps the members read before the word at which it breaks off.
Forward declarations, class references and helpers are no classes.
-/

namespace MigrationAudit.Pascal

open Text Source

/-! ## Introducers -/

def keyword? (keywords : List String) (c : Cursor) : Option Cursor :=
  let word := c.after.takeWhile isNameChar
  if keywords.any (foldsTo word) then some (c.skipWhile isNameChar) else none

/-- The cursor behind one of the given keywords, also when `packed` stands in front of it. -/
def packedKeyword? (keywords : List String) (c : Cursor) : Option Cursor :=
  match keyword? keywords c with
  | some d => some d
  | none =>
    match keyword? ["packed"] c with
    | some d => if d.after.head?.any isBlank then keyword? keywords d.skipBlank else none
    | none => none

/-- The cursor behind the keyword that an equals sign at the cursor introduces. -/
def introduced? (keywords : List String) (c : Cursor) : Option Cursor :=
  match c.after with
  | '=' :: _ => packedKeyword? keywords c.next.skipBlank
  | _ => none

/-- The name of a class and the cursor behind its keyword, when its declaration starts at the
cursor. -/
def classIntroduced? (c : Cursor) : Option (List Char × Cursor) :=
  if c.atRunStart isNameChar && c.after.head?.any isFoldedNameStart then
    (introduced? ["class"] (c.skipWhile isNameChar).skipBlank).map fun behind =>
      (c.after.takeWhile isNameChar, behind)
  else none

def classIntroducers : List Char → List (Match (List Char)) := allMatches classIntroduced?

/-- The cursor behind the keyword of a record, an object or an interface, when an equals sign at the
cursor introduces it. -/
def otherIntroduced? (c : Cursor) : Option (Unit × Cursor) :=
  (introduced? ["record", "object", "interface", "dispinterface"] c).map ((), ·)

def otherIntroducers : List Char → List (Match Unit) := allMatches otherIntroduced?

/-! ## Classes -/

/-- What a word does to the body of a class: another class introduced in it breaks it off. -/
def classStep (w : Word) : BlockStep :=
  match w.lower with
  | "end" => .closes
  | "record" => .opens
  | "class" =>
    -- `class of` only refers to a class.
    if w.first.lastSignificant? == some '=' && !w.behind.adjacentWord?.any (·.lower == "of") then
      .aborts
    else .skips
  | "implementation" | "initialization" | "finalization" | "begin" => .aborts
  | _ => .skips

/-- A class found in a text: its facts, what its declaration covers, whether it is closed, and its
dataset components. -/
structure ParsedClass where
  facts : ClassDecl
  span : Span
  terminated : Bool
  components : List DataOp
deriving DecidableEq, Repr

/-- The cursor behind the modifiers of a class, unless it is a class reference or a helper. -/
def pastModifiers? (c : Cursor) : Option Cursor :=
  match c.adjacentWord? with
  | some w =>
    match w.lower with
    | "of" | "helper" => none
    | "abstract" | "sealed" => some w.behind
    | _ => some c
  | none => some c

def ancestors (c : Cursor) : List String × Cursor :=
  match c.skipBlank.after with
  | '(' :: rest =>
    let (inside, behind) :=
      match splitAtClose? '(' ')' ('(' :: rest) with
      | some (inside, behind) => (inside.drop 1, c.skipBlank.advance (inside ++ [')']) behind)
      | none => (rest, c.toEnd)
    ((splitTopLevel ',' inside).map fun a => String.ofList (squash a), behind)
  | _ => ([], c)

def semicolonFollows (c : Cursor) : Bool := c.skipBlank.after.head? == some ';'

def withRoles (s : ExtractionSettings) (components : List DataOp) (c : ClassDecl) : ClassDecl :=
  let isDataModule := c.parent.any s.isDataModuleSupertype
  { c with
    isFormLike := c.parent.any s.isFormSupertype
    isDataModule
    isDataAccessLike := isDataModule || !components.isEmpty }

/-- The members of a body that a block scan found, put into a class. -/
def ParsedClass.ofBody (source : Masked) (s : ExtractionSettings) (facts : ClassDecl) (start : Nat)
    (c : Cursor) : ParsedClass :=
  let scan := scanBlock classStep c
  let bodyStop :=
    match scan.ending with
    | .closed w => w.start
    | _ => (scan.stopCursor c).offset
  let members := Members.read source s facts.name ⟨c.offset, bodyStop⟩
  { facts := withRoles s members.components
      { facts with fields := members.fields, methods := members.methods }
    span := ⟨start, (scan.stopCursor c).offset⟩
    terminated := scan.isClosed
    components := members.components }

/-- The class that an introducer declares. A class with ancestors and a semicolon behind them has no
body; without ancestors it is only announced. -/
def ParsedClass.read? (source : Masked) (s : ExtractionSettings) (i : Match (List Char)) :
    Option ParsedClass :=
  match pastModifiers? i.behind with
  | none => none
  | some c =>
    if semicolonFollows c then none
    else
      let hasAncestors := c.skipBlank.after.head? == some '('
      let (names, behind) := ancestors c
      let facts : ClassDecl :=
        { name := String.ofList i.value
          parent := names.head?
          interfaces := names.tail
          line := source.lineAt i.first.offset }
      if hasAncestors && semicolonFollows behind then
        some ⟨withRoles s [] facts, ⟨i.first.offset, behind.offset⟩, true, []⟩
      else some (.ofBody source s facts i.first.offset behind)

/-- The classes of a text in order. An introducer inside a closed class is part of it. -/
def findClasses (source : Masked) (s : ExtractionSettings) : List ParsedClass :=
  (classIntroducers source.code).foldl
    (fun found i =>
      -- A class that was broken off covers nothing: the one at which it broke off is read next.
      if found.any fun c => c.terminated && c.span.contains i.first.offset then found
      else found ++ (ParsedClass.read? source s i).toList)
    []

def classDiagnostics (path : String) (classes : List ParsedClass) : List Diagnostic :=
  (classes.filter (!·.terminated)).map fun c =>
    .malformed path s!"class '{c.facts.name}' has no terminating end" c.facts.line

def otherTypeStep (w : Word) : BlockStep :=
  match w.lower with
  | "end" => .closes
  | "record" => .opens
  | "implementation" | "begin" => .aborts
  | _ => .skips

def findOtherTypes (code : List Char) : List Span :=
  (otherIntroducers code).foldl
    (fun found i =>
      if found.any (·.contains i.first.offset) || semicolonFollows i.behind then found
      else
        found ++ [⟨i.first.offset, ((scanBlock otherTypeStep i.behind).stopCursor i.behind).offset⟩])
    []

end MigrationAudit.Pascal
