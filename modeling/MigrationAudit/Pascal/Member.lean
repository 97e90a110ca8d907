import MigrationAudit.Pascal.Header
import MigrationAudit.Pascal.Statement
import MigrationAudit.Settings.Basic
import MigrationAudit.Source.Masked

/-!
# Members of a class

The declarations of a class body are read one after the other. Words in front of a declaration
change the visibility, or start or end a stretch of declarations that are no fields.
-/

namespace MigrationAudit.Pascal

open Text

def visibility? : String → Option Visibility
  | "private" => some .privateAccess
  | "protected" => some .protectedAccess
  | "public" | "automated" => some .publicAccess
  | "published" => some .publishedAccess
  | _ => none

/-- The words, in lower case, that end the type of a property. -/
def propertySpecifiers : List String :=
  ["read", "write", "default", "nodefault", "stored", "index", "implements"]

/-- What the words in front of a declaration set. -/
structure MemberContext where
  visibility : Visibility := .publishedAccess
  skipping : Bool := false
  classLevel : Bool := false
deriving DecidableEq, Repr

namespace MemberContext

/-- The context behind one more word, unless the word belongs to the declaration itself. -/
def note? (m : MemberContext) (word : String) : Option MemberContext :=
  match word with
  | "strict" => some m
  | "var" => some { m with skipping := false }
  | "const" | "type" => some { m with skipping := true }
  -- A second `class` is no longer in front of the declaration.
  | "class" => if m.classLevel then none else some { m with classLevel := true }
  | _ => (visibility? word).map fun v => { m with visibility := v, skipping := false }

/-- The context behind all words in front of the declaration at the cursor, and the cursor where the
declaration itself starts. -/
def read (m : MemberContext) (c : Cursor) : MemberContext × Cursor :=
  match _h : c.adjacentWord? with
  | none => (m, c)
  | some w =>
    match m.note? w.lower with
    | some m => m.read w.behind.skipBlank
    | none => (m, c)
termination_by c.after.length
decreasing_by
  exact Nat.lt_of_le_of_lt (Cursor.leads_skipWhile ..).length_le (Cursor.length_of_adjacentWord? _h)

end MemberContext

structure Members where
  fields : List Field := []
  methods : List Routine := []
  components : List DataOp := []
  context : MemberContext := {}
  recordDepth : Nat := 0

def property? (text : List Char) (visibility : Visibility) (line : Nat) : Option Field := do
  let (_, rest) ← leadingWord? text
  let (name, rest) ← leadingWord? rest
  let rest ←
    match trimStart rest with
    | '[' :: rest => (splitAtClose? '[' ']' ('[' :: rest)).map fun (_, behind) => trimStart behind
    | rest => some rest
  let typeName :=
    match rest with
    | ':' :: type =>
      match (words type).find? (·.isOneOf propertySpecifiers) with
      | some w => squashed? (takeBytes w.start type)
      | none => squashed? type
    | _ => none
  some { name := String.ofList name, typeName, visibility, isProperty := true, line }

def component? (s : ExtractionSettings) (owner : String) (f : Field) : Option DataOp :=
  f.typeName.bind fun type =>
    if s.isDatasetComponent type then
      some
        { kind := .component
          raw := f.name ++ ": " ++ type
          componentType := some type
          owner := some owner
          line := f.line }
    else none

namespace Members

def addFields (m : Members) (s : ExtractionSettings) (owner : String) (fields : List Field) :
    Members :=
  { m with
    fields := m.fields ++ fields
    components := m.components ++ fields.filterMap (component? s owner) }

def addMethod (m : Members) (s : ExtractionSettings) (owner : String) (h : Header) (line : Nat) :
    Members :=
  let r := h.toRoutine line
  let method :=
    { r with
      owner := some owner
      visibility := some m.context.visibility
      isClassLevel := m.context.classLevel
      isEventHandler := s.isEventHandler r.name || r.takesSender }
  { m with methods := m.methods ++ [method] }

def addDirective (m : Members) (directive : String) : Members :=
  match m.methods.getLast? with
  | some last =>
    let last := { last with directives := last.directives ++ [directive] }
    { m with methods := m.methods.dropLast ++ [last] }
  | none => m

/-- Reads the fields of a declaration in which `opens` records start and `closes` end. -/
def readFields (m : Members) (s : ExtractionSettings) (owner : String) (opens closes : Nat)
    (text : List Char) (line : Nat) : Members :=
  match splitFirst? ':' text with
  | none => m
  | some (names, type) =>
    let typeName := if 0 < opens then some "record" else squashed? (before '=' type)
    -- The fields of a record are statements of their own; they are passed over up to its `end`.
    let m := if 0 < opens then { m with recordDepth := opens - closes } else m
    m.addFields s owner ((identifiers names).map fun name =>
      { name, typeName, visibility := m.context.visibility, line })

def readDeclaration (m : Members) (s : ExtractionSettings) (owner : String) (opens closes : Nat)
    (text : List Char) (line : Nat) : Members :=
  let first := (leadingWord? text).map fun (word, _) => lowered word
  if (first.bind routineKind?).isSome then
    -- A routine ends a stretch of constants or types, also when its header cannot be read.
    let m := { m with context := { m.context with skipping := false } }
    match Header.parse? text with
    | some h => m.addMethod s owner h line
    | none => m
  else if first.any directives.contains then m.addDirective (first.getD "")
  else if first == some "property" then
    match property? text m.context.visibility line with
    | some field => { m with fields := m.fields ++ [field] }
    | none => m
  else if m.context.skipping then m
  else m.readFields s owner opens closes text line

/-- Reads one declaration of the class `owner`, which starts at byte `n`. Inside a record nothing is
read. -/
def note (source : Source.Masked) (s : ExtractionSettings) (owner : String) (m : Members)
    (declaration : Nat × List Char) : Members :=
  let (n, text) := declaration
  let opens := countKeywords text ["record"] false
  let closes := countKeywords text ["end"] false
  if 0 < m.recordDepth then { m with recordDepth := m.recordDepth + opens - closes }
  else
    let (context, c) := { m.context with classLevel := false }.read ⟨n, [], text⟩
    let m := { m with context }
    if c.after.isEmpty then m
    else m.readDeclaration s owner opens closes c.after (source.lineAt c.offset)

def read (source : Source.Masked) (s : ExtractionSettings) (owner : String) (body : Span) :
    Members :=
  (statements body.start (body.slice source.code)).foldl (note source s owner) {}

end Members

end MigrationAudit.Pascal
