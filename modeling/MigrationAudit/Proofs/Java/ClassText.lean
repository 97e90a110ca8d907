import Mathlib.Data.List.Infix
import MigrationAudit.Java.Declaration
import MigrationAudit.Proofs.Source.Segments
import MigrationAudit.Proofs.Text.Pieces

/-!
# Classes written out

A class is written with each member on a line of its own. Its names may be any but those in which a
word stands that the readers of a class look for. What stands in the angle brackets of a type, or
between the braces of a method, is any text whose brackets are paired.
-/

namespace MigrationAudit.Listed

/-- A property of the characters of a list is decided on the list, not on all characters. -/
scoped instance (priority := high) decidableForallMem {p : Char → Prop} [DecidablePred p]
    (cs : List Char) : Decidable (∀ c ∈ cs, p c) :=
  List.decidableBAll p cs

end MigrationAudit.Listed

namespace MigrationAudit.Java

open Text Source
open scoped Listed

/-! ## Declarations -/

/-- A type: its name, what stands in angle brackets behind it, and how often `[]` follows. -/
structure TypeText where
  name : String
  args : Option String := none
  dims : Nat := 0

structure NamedText where
  type : TypeText
  name : String

structure ParamText where
  named : NamedText
  isFinal : Bool := false

/-- The visibilities that a modifier gives. -/
inductive Access
  | publicAccess
  | protectedAccess
  | privateAccess

structure ModifierText where
  access : Option Access := none
  isStatic : Bool := false
  isFinal : Bool := false

/-- What makes a member a field or a method; a method may lack a body. -/
inductive MemberForm
  | field
  | method (params : List ParamText) (body : Option String)

structure MemberText where
  modifiers : ModifierText := {}
  named : NamedText
  form : MemberForm

structure ClassText where
  name : String
  parent : Option String := none
  interfaces : List String := []
  members : List MemberText

/-! ## Texts -/

def argsText : Option String → List Char
  | none => []
  | some args => '<' :: (args.toList ++ ['>'])

def dimsText (dims : Nat) : List Char := (List.replicate dims ['[', ']']).flatten

def wordsText (ws : List String) : List Char := ws.flatMap fun w => w.toList ++ [' ']

namespace TypeText

def text (t : TypeText) : List Char := t.name.toList ++ (argsText t.args ++ dimsText t.dims)

/-- The type as it is recorded: with single spaces. -/
def label (t : TypeText) : String := String.ofList (squash t.text)

end TypeText

def NamedText.text (n : NamedText) : List Char := n.type.text ++ ' ' :: n.name.toList

namespace ParamText

def words (p : ParamText) : List String := if p.isFinal then ["final"] else []

def text (p : ParamText) : List Char := wordsText p.words ++ p.named.text

end ParamText

def paramsText : List ParamText → List Char
  | [] => []
  | p :: ps => p.text ++ separated ',' (ps.map ParamText.text)

def Access.visibility : Access → Visibility
  | .publicAccess => .publicAccess
  | .protectedAccess => .protectedAccess
  | .privateAccess => .privateAccess

namespace ModifierText

def words (m : ModifierText) : List String :=
  m.access.toList.map (fun a => tag a.visibility) ++
    ((if m.isStatic then ["static"] else []) ++ if m.isFinal then ["final"] else [])

def visibility (m : ModifierText) : Visibility := m.access.elim .packageAccess Access.visibility

def directives (m : ModifierText) : List String := if m.isFinal then ["final"] else []

end ModifierText

def bodyText : Option String → List Char
  | none => [';']
  | some body => [' ', '\x7b'] ++ (body.toList ++ ['\x7d'])

def MemberForm.text : MemberForm → List Char
  | .field => [';']
  | .method params body => '(' :: (paramsText params ++ ')' :: bodyText body)

namespace MemberText

/-- What stands in front of the type of a member. -/
def margin (m : MemberText) : List Char := "\n    ".toList ++ wordsText m.modifiers.words

def text (m : MemberText) : List Char := m.margin ++ (m.named.text ++ m.form.text)

end MemberText

def listText : List String → List Char
  | [] => []
  | n :: ns => n.toList ++ separated ',' (ns.map (·.toList))

def clauseText (clause : String × List String) : List Char :=
  clause.1.toList ++ (' ' :: (listText clause.2 ++ [' ']))

namespace ClassText

def clauses (c : ClassText) : List (String × List String) :=
  [("extends", c.parent.toList), ("implements", c.interfaces)].filter fun clause =>
    !clause.2.isEmpty

def head (c : ClassText) : List Char := ' ' :: c.clauses.flatMap clauseText

def front (c : ClassText) : List Char := "class ".toList ++ (c.name.toList ++ c.head)

def body (c : ClassText) : List Char := c.members.flatMap MemberText.text ++ ['\n']

def text (c : ClassText) : List Char := c.front ++ '\x7b' :: (c.body ++ ['\x7d'])

end ClassText

/-! ## Declarations that can be written -/

/-- The words that the readers of a class look for. -/
def reserved : List String :=
  modifierWords ++ ["class", "interface", "enum", "record"] ++ clauseWords

/-- The words of a name end at its dollar signs. -/
structure IsName (n : String) : Prop where
  ne_nil : n.toList ≠ []
  chars : ∀ c ∈ n.toList, isNamePart c = true
  start : n.toList.head?.any Char.isDigit = false
  free : ∀ w ∈ Text.words n.toList, String.ofList w.text ∉ reserved

instance (n : String) : Decidable (IsName n) :=
  decidable_of_iff
    (n.toList ≠ [] ∧ (∀ c ∈ n.toList, isNamePart c = true) ∧
      n.toList.head?.any Char.isDigit = false ∧
      ∀ w ∈ Text.words n.toList, String.ofList w.text ∉ reserved)
    ⟨fun ⟨n, c, s, f⟩ => ⟨n, c, s, f⟩, fun h => ⟨h.ne_nil, h.chars, h.start, h.free⟩⟩

/-- Nothing in a text starts a comment or a literal. -/
def IsCode (cs : List Char) : Prop := ∀ o ∈ Syntax.java.openers, ¬o <:+: cs

instance (cs : List Char) : Decidable (IsCode cs) := List.decidableBAll _ _

/-- The characters that stand in no type. -/
def typeStops : List Char := ['(', ')', '\x7b', '\x7d', '=', '"', '\'', '/', '\n']

/-- What may stand in angle brackets. -/
structure IsArguments (args : List Char) : Prop where
  angles : IsPaired (· == '<') (· == '>') args
  brackets : IsPaired isOpening isClosing args
  free : ∀ c ∈ args, c ∉ typeStops

instance (args : List Char) : Decidable (IsArguments args) :=
  decidable_of_iff
    (IsPaired (· == '<') (· == '>') args ∧ IsPaired isOpening isClosing args ∧
      ∀ c ∈ args, c ∉ typeStops)
    ⟨fun ⟨a, b, f⟩ => ⟨a, b, f⟩, fun h => ⟨h.angles, h.brackets, h.free⟩⟩

structure TypeText.IsPlain (t : TypeText) : Prop where
  name : IsName t.name
  args : ∀ a ∈ t.args, IsArguments a.toList

instance (t : TypeText) : Decidable t.IsPlain :=
  decidable_of_iff (IsName t.name ∧ ∀ a ∈ t.args, IsArguments a.toList)
    ⟨fun ⟨n, a⟩ => ⟨n, a⟩, fun h => ⟨h.name, h.args⟩⟩

structure NamedText.IsPlain (n : NamedText) : Prop where
  type : n.type.IsPlain
  name : IsName n.name

instance (n : NamedText) : Decidable n.IsPlain :=
  decidable_of_iff (n.type.IsPlain ∧ IsName n.name)
    ⟨fun ⟨t, n⟩ => ⟨t, n⟩, fun h => ⟨h.type, h.name⟩⟩

/-- What may stand between the braces of a method. -/
structure IsBody (body : List Char) : Prop where
  braces : IsPaired (· == '\x7b') (· == '\x7d') body
  code : IsCode body

instance (body : List Char) : Decidable (IsBody body) :=
  decidable_of_iff (IsPaired (· == '\x7b') (· == '\x7d') body ∧ IsCode body)
    ⟨fun ⟨b, c⟩ => ⟨b, c⟩, fun h => ⟨h.braces, h.code⟩⟩

def MemberForm.IsPlain : MemberForm → Prop
  | .field => True
  | .method params body =>
    (∀ p ∈ params, p.named.IsPlain) ∧ ∀ b ∈ body, IsBody b.toList

instance : DecidablePred MemberForm.IsPlain
  | .field => .isTrue trivial
  | .method params body =>
    inferInstanceAs
      (Decidable ((∀ p ∈ params, p.named.IsPlain) ∧ ∀ b ∈ body, IsBody b.toList))

structure MemberText.IsPlain (m : MemberText) : Prop where
  named : m.named.IsPlain
  form : m.form.IsPlain

instance (m : MemberText) : Decidable m.IsPlain :=
  decidable_of_iff (m.named.IsPlain ∧ m.form.IsPlain)
    ⟨fun ⟨n, f⟩ => ⟨n, f⟩, fun h => ⟨h.named, h.form⟩⟩

/-- The name of a class begins with a word: behind a dollar sign no class is found. -/
structure ClassText.IsPlain (c : ClassText) : Prop where
  name : IsName c.name
  start : c.name.toList.head?.any isIdent = true
  parent : ∀ p ∈ c.parent, IsName p
  interfaces : ∀ i ∈ c.interfaces, IsName i
  members : ∀ m ∈ c.members, m.IsPlain

instance (c : ClassText) : Decidable c.IsPlain :=
  decidable_of_iff
    (IsName c.name ∧ c.name.toList.head?.any isIdent = true ∧ (∀ p ∈ c.parent, IsName p) ∧
      (∀ i ∈ c.interfaces, IsName i) ∧ ∀ m ∈ c.members, m.IsPlain)
    ⟨fun ⟨n, s, p, i, m⟩ => ⟨n, s, p, i, m⟩,
      fun h => ⟨h.name, h.start, h.parent, h.interfaces, h.members⟩⟩

/-! ## What is declared -/

def ParamText.param (p : ParamText) : Param :=
  { name := p.named.name
    typeName := some p.named.type.label
    modifier := if p.isFinal then some "final" else none }

namespace MemberText

def field (m : MemberText) (line : Nat) : Field :=
  { name := m.named.name
    typeName := some m.named.type.label
    visibility := m.modifiers.visibility
    line }

/-- The method of a class that a member declares on a line. -/
def routine (m : MemberText) (owner : String) (line : Nat) (params : List ParamText)
    (body : Option String) : Routine :=
  { name := m.named.name
    owner := some owner
    kind := .method
    params := params.map ParamText.param
    returnType := if m.named.type.label = "void" then none else some m.named.type.label
    visibility := some m.modifiers.visibility
    complexity := body.elim 1 fun b => complexity b.toList
    callHints := body.elim [] fun b => callHints b.toList
    isClassLevel := m.modifiers.isStatic
    hasBody := body.isSome
    directives := m.modifiers.directives
    line }

/-- What a member declares when `front` stands in front of it. -/
def scope (m : MemberText) (owner : String) (front : List Char) : Scope :=
  let line := 2 + front.count '\n'
  match m.form with
  | .field => { fields := [m.field line] }
  | .method params body =>
    { methods := [⟨m.routine owner line params body, [], ⟨width front, width (front ++ m.text)⟩⟩] }

end MemberText

/-- What members declare when `front` stands in front of them. -/
def membersScope (owner : String) (front : List Char) : List MemberText → Scope
  | [] => {}
  | m :: ms => m.scope owner front ++ membersScope owner (front ++ m.text) ms

namespace ClassText

/-- The name up to its first dollar sign. -/
def word (c : ClassText) : List Char := before '$' c.name.toList

/-- The class that the text declares. -/
def parsed (c : ClassText) : ParsedType :=
  let inner := membersScope (String.ofList c.word) (c.front ++ ['\x7b']) c.members
  { name := String.ofList c.word
    kind := .classType
    annotations := []
    modifiers := []
    ancestry := ⟨c.parent, c.interfaces⟩
    header := ⟨width ("class ".toList ++ c.word), width c.front⟩
    fields := inner.fields
    methods := inner.methods
    span := ⟨0, width c.text⟩
    topLevel := true
    line := 1 }

end ClassText

end MigrationAudit.Java
