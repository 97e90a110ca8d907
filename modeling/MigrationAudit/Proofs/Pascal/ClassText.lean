import MigrationAudit.Pascal.TypeDecl
import MigrationAudit.Proofs.Pascal.HeaderText

/-!
# Classes written out

A class is written with each member on a line of its own, behind the keyword of its section. Names
and types are identifiers of basic Latin letters that no reader of a class looks for.
-/

namespace MigrationAudit.Pascal

open Text

/-! ## Declarations -/

inductive MemberText
  | fields (names : List String) (typeName : String)
  | property (name : String) (index : List Param) (typeName : Option String)
      (specifiers : List (String × String))
  | method (classLevel : Bool) (header : Header) (directives : List String)

/-- The members behind a visibility keyword. -/
structure SectionText where
  visibility : Visibility
  members : List MemberText

/-- A class declaration; the leading members stand in front of all visibility keywords. -/
structure ClassText where
  name : String
  ancestors : List String
  leading : List MemberText
  sections : List SectionText

/-! ## Texts -/

def listText : List String → List Char
  | [] => []
  | n :: ns => n.toList ++ separated ',' (ns.map (·.toList))

def indexText : List Param → List Char
  | [] => []
  | ps => '[' :: (groupsText ps ++ [']'])

def specifiersText (specifiers : List (String × String)) : List Char :=
  specifiers.flatMap fun (word, name) => ' ' :: (word.toList ++ ' ' :: name.toList)

def directivesText (directives : List String) : List Char :=
  directives.flatMap fun d => ' ' :: (d.toList ++ [';'])

namespace MemberText

/-- The declaration up to its first semicolon outside brackets. -/
def front : MemberText → List Char
  | .fields names typeName => listText names ++ typeText (some typeName)
  | .property name index typeName specifiers =>
    "property ".toList ++ (name.toList ++ (indexText index ++ (typeText typeName ++
      specifiersText specifiers)))
  | .method classLevel header _ => classWord classLevel ++ header.text

/-- The words behind the declaration, each with its semicolon. -/
def trailer : MemberText → List Char
  | .method _ _ directives => directivesText directives
  | _ => []

def text (m : MemberText) : List Char := "\n    ".toList ++ (m.front ++ ';' :: m.trailer)

theorem front_fields (names : List String) (typeName : String) :
    front (.fields names typeName) = listText names ++ typeText (some typeName) := rfl

theorem front_property (name : String) (index : List Param) (typeName : Option String)
    (specifiers : List (String × String)) :
    front (.property name index typeName specifiers) =
      "property ".toList ++ (name.toList ++ (indexText index ++ (typeText typeName ++
        specifiersText specifiers))) := rfl

theorem front_method (classLevel : Bool) (header : Header) (directives : List String) :
    front (.method classLevel header directives) = classWord classLevel ++ header.text := rfl

end MemberText

def membersText (ms : List MemberText) : List Char := ms.flatMap MemberText.text

def headingText (v : Visibility) : List Char := "\n  ".toList ++ (tag v).toList

def sectionsText (ss : List SectionText) : List Char :=
  ss.flatMap fun s => headingText s.visibility ++ membersText s.members

theorem membersText_cons (t : MemberText) (ms : List MemberText) :
    membersText (t :: ms) = t.text ++ membersText ms := List.flatMap_cons

theorem sectionsText_cons (t : SectionText) (ss : List SectionText) :
    sectionsText (t :: ss) =
      (headingText t.visibility ++ membersText t.members) ++ sectionsText ss := List.flatMap_cons

def ancestorsText : List String → List Char
  | [] => []
  | names => '(' :: (listText names ++ [')'])

namespace ClassText

def body (c : ClassText) : List Char :=
  membersText c.leading ++ (sectionsText c.sections ++ "\n  ".toList)

def tail (c : ClassText) : List Char :=
  ancestorsText c.ancestors ++ (c.body ++ "end;".toList)

def text (c : ClassText) : List Char :=
  "type\n  ".toList ++ (c.name.toList ++ (" = class".toList ++ c.tail))

end ClassText

/-! ## Declarations that can be written -/

/-- The words, in lower case, that the readers of a class look for. -/
def reserved : List String :=
  directives ++ propertySpecifiers ++ paramModifiers ++
    ["procedure", "function", "constructor", "destructor", "property", "private", "protected",
      "public", "published", "automated", "strict", "type", "class", "record", "begin", "end",
      "implementation", "initialization", "finalization", "of", "helper", "sealed"]

structure IsFreeName (n : String) : Prop where
  identifier : isIdentifier n.toList = true
  ascii : (n.toList.all fun a => a.toNat < 128) = true
  free : lowered n.toList ∉ reserved

instance (n : String) : Decidable (IsFreeName n) :=
  decidable_of_iff
    (isIdentifier n.toList = true ∧ (n.toList.all fun a => a.toNat < 128) = true ∧
      lowered n.toList ∉ reserved)
    ⟨fun ⟨h, h', h''⟩ => ⟨h, h', h''⟩, fun h => ⟨h.identifier, h.ascii, h.free⟩⟩

structure IsFreeParam (p : Param) : Prop where
  name : IsFreeName p.name
  typeName : ∀ t ∈ p.typeName, IsFreeName t
  modifier : ∀ m ∈ p.modifier, m ∈ paramModifiers

instance (p : Param) : Decidable (IsFreeParam p) :=
  decidable_of_iff
    (IsFreeName p.name ∧ (∀ t ∈ p.typeName, IsFreeName t) ∧
      ∀ m ∈ p.modifier, m ∈ paramModifiers)
    ⟨fun ⟨h, h', h''⟩ => ⟨h, h', h''⟩, fun h => ⟨h.name, h.typeName, h.modifier⟩⟩

/-- A header as it stands in a class: `class` in front of it is not part of it. -/
structure Header.IsMember (h : Header) : Prop where
  kind : h.kind ≠ .method
  owner : h.owner = none
  isClassLevel : h.isClassLevel = false
  name : IsFreeName h.name
  params : ∀ p ∈ h.params, IsFreeParam p
  returnType : ∀ t ∈ h.returnType, IsFreeName t

instance (h : Header) : Decidable h.IsMember :=
  decidable_of_iff
    (h.kind ≠ .method ∧ h.owner = none ∧ h.isClassLevel = false ∧ IsFreeName h.name ∧
      (∀ p ∈ h.params, IsFreeParam p) ∧ ∀ t ∈ h.returnType, IsFreeName t)
    ⟨fun ⟨k, o, c, n, p, r⟩ => ⟨k, o, c, n, p, r⟩,
      fun h => ⟨h.kind, h.owner, h.isClassLevel, h.name, h.params, h.returnType⟩⟩

def MemberText.IsPlain : MemberText → Prop
  | .fields names typeName => names ≠ [] ∧ (∀ n ∈ names, IsFreeName n) ∧ IsFreeName typeName
  | .property name index typeName specifiers =>
    IsFreeName name ∧ (∀ p ∈ index, IsFreeParam p) ∧ (∀ t ∈ typeName, IsFreeName t) ∧
      ∀ s ∈ specifiers, s.1 ∈ propertySpecifiers ∧ IsFreeName s.2
  | .method _ header words => header.IsMember ∧ ∀ d ∈ words, d ∈ directives

instance : DecidablePred MemberText.IsPlain
  | .fields names typeName =>
    inferInstanceAs (Decidable (names ≠ [] ∧ (∀ n ∈ names, IsFreeName n) ∧ IsFreeName typeName))
  | .property name index typeName specifiers =>
    inferInstanceAs (Decidable (IsFreeName name ∧ (∀ p ∈ index, IsFreeParam p) ∧
      (∀ t ∈ typeName, IsFreeName t) ∧
      ∀ s ∈ specifiers, s.1 ∈ propertySpecifiers ∧ IsFreeName s.2))
  | .method _ header words =>
    inferInstanceAs (Decidable (header.IsMember ∧ ∀ d ∈ words, d ∈ directives))

structure SectionText.IsPlain (s : SectionText) : Prop where
  visibility : s.visibility ≠ .packageAccess
  members : ∀ m ∈ s.members, m.IsPlain

instance (s : SectionText) : Decidable s.IsPlain :=
  decidable_of_iff (s.visibility ≠ .packageAccess ∧ ∀ m ∈ s.members, m.IsPlain)
    ⟨fun ⟨h, h'⟩ => ⟨h, h'⟩, fun h => ⟨h.visibility, h.members⟩⟩

structure ClassText.IsPlain (c : ClassText) : Prop where
  name : IsFreeName c.name
  ancestors : ∀ n ∈ c.ancestors, IsFreeName n
  leading : ∀ m ∈ c.leading, m.IsPlain
  sections : ∀ s ∈ c.sections, s.IsPlain

instance (c : ClassText) : Decidable c.IsPlain :=
  decidable_of_iff
    (IsFreeName c.name ∧ (∀ n ∈ c.ancestors, IsFreeName n) ∧ (∀ m ∈ c.leading, m.IsPlain) ∧
      ∀ s ∈ c.sections, s.IsPlain)
    ⟨fun ⟨n, a, l, s⟩ => ⟨n, a, l, s⟩, fun h => ⟨h.name, h.ancestors, h.leading, h.sections⟩⟩

/-! ## What is declared -/

/-- A member with the visibility of its section and the line on which it stands. -/
structure PlacedMember where
  visibility : Visibility
  line : Nat
  member : MemberText

namespace PlacedMember

def fields (p : PlacedMember) : List Field :=
  match p.member with
  | .fields names typeName =>
    names.map fun name =>
      { name, typeName := some typeName, visibility := p.visibility, line := p.line }
  | .property name _ typeName _ =>
    [{ name, typeName, visibility := p.visibility, isProperty := true, line := p.line }]
  | .method .. => []

def methods (s : ExtractionSettings) (owner : String) (p : PlacedMember) : List Routine :=
  match p.member with
  | .method classLevel header directives =>
    [{ name := header.name
       owner := some owner
       kind := header.kind
       params := header.params
       returnType := header.returnType
       visibility := some p.visibility
       isEventHandler :=
         s.isEventHandler header.name || header.params.any (·.name.toLower == "sender")
       isClassLevel := classLevel
       directives
       line := p.line }]
  | _ => []

def components (s : ExtractionSettings) (owner : String) (p : PlacedMember) : List DataOp :=
  match p.member with
  | .fields .. => p.fields.filterMap (component? s owner)
  | _ => []

end PlacedMember

/-- Members in lines of their own, from a line on. -/
def placeMembers (v : Visibility) (line : Nat) : List MemberText → List PlacedMember
  | [] => []
  | m :: ms => ⟨v, line, m⟩ :: placeMembers v (line + 1) ms

/-- Sections one below the other, each with its keyword on a line of its own. -/
def placeSections (line : Nat) : List SectionText → List PlacedMember
  | [] => []
  | s :: rest =>
    placeMembers s.visibility (line + 1) s.members ++
      placeSections (line + 1 + s.members.length) rest

namespace ClassText

/-- The members of the class, which starts on line 2. -/
def placed (c : ClassText) : List PlacedMember :=
  placeMembers .publishedAccess 3 c.leading ++ placeSections (3 + c.leading.length) c.sections

/-- The class that the text declares. -/
def parsed (s : ExtractionSettings) (c : ClassText) : ParsedClass :=
  let components := c.placed.flatMap (·.components s c.name)
  { facts := withRoles s components
      { name := c.name
        parent := c.ancestors.head?
        interfaces := c.ancestors.tail
        fields := c.placed.flatMap (·.fields)
        methods := c.placed.flatMap (·.methods s c.name)
        line := 2 }
    span := ⟨7, width c.text - 1⟩
    terminated := true
    components }

end ClassText

/-! ## Free names -/

theorem IsFreeName.isTypeText {n : String} (h : IsFreeName n) : IsTypeText n := by
  obtain ⟨hne, hident⟩ := isIdent_of_isIdentifier h.identifier
  have hblank : ∀ c ∈ n.toList, isBlank c = false := fun c hc => isBlank_of_isIdent (hident c hc)
  refine ⟨hne, (squash_of_run hne hblank).1, List.all_eq_true.mpr fun c hc => ?_⟩
  rw [hident c hc]
  rfl

theorem IsFreeName.toNat_lt {n : String} (h : IsFreeName n) {a : Char} (ha : a ∈ n.toList) :
    a.toNat < 128 := of_decide_eq_true (List.all_eq_true.mp h.ascii a ha)

theorem IsFreeName.not_mem_of_subset {n : String} (h : IsFreeName n) {words : List String}
    (hwords : words ⊆ reserved) : lowered n.toList ∉ words := fun hmem => h.free (hwords hmem)

theorem IsFreeParam.isPlainParam {p : Param} (h : IsFreeParam p) : IsPlainParam p :=
  ⟨h.name.identifier, fun t ht => (h.typeName t ht).isTypeText, h.modifier⟩

theorem Header.IsMember.isPlain {h : Header} (hmember : h.IsMember) : h.IsPlain where
  kind := hmember.kind
  isClassLevel := hmember.isClassLevel
  owner := by simp [hmember.owner]
  name := hmember.name.identifier
  params := fun p hp => (hmember.params p hp).isPlainParam
  returnType := fun t ht => (hmember.returnType t ht).isTypeText

end MigrationAudit.Pascal
