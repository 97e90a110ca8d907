import MigrationAudit.Pascal.Header

/-!
# Sections of a unit

A unit names itself, then declares an interface, then an implementation, and last what is run at its
start and end. A program has no interface; all behind its name is implementation.
-/

namespace MigrationAudit.Pascal

open Text

inductive FileKind
  | unit
  | program
  | library
  | package
deriving DecidableEq, Repr

instance : Tagged FileKind where
  all := [.unit, .program, .library, .package]
  tag
    | .unit => "unit"
    | .program => "program"
    | .library => "library"
    | .package => "package"

structure FileHeader where
  kind : FileKind
  name : String
  stop : Nat
deriving DecidableEq, Repr

/-- The kind of file that a word, with folded case, announces. -/
def fileKind? (word : List Char) : Option FileKind :=
  (Tagged.all : List FileKind).find? fun k => foldsTo word (tag k)

/-- Moves over white space, if there is any. -/
def someBlank? (c : Cursor) : Option Cursor :=
  if c.after.head?.any isBlank then some c.skipBlank else none

def FileHeader.here? (c : Cursor) : Option FileHeader := do
  let kind ← fileKind? (c.after.takeWhile isNameChar)
  let name ← someBlank? (c.skipWhile isNameChar)
  if !name.after.head?.any isFoldedNameStart then none
  let isNamePart (a : Char) := isNameChar a || a == '.'
  let behind := (name.skipWhile isNamePart).skipBlank
  match behind.after with
  | ';' :: _ => some ⟨kind, String.ofList (name.after.takeWhile isNamePart), behind.next.offset⟩
  | _ => none

/-- The first header that stands at the start of a line. -/
def FileHeader.find? (code : List Char) : Option FileHeader :=
  ((Cursor.places code).filter (·.atLineStart)).findSome? fun c => here? c.skipBlank

structure Sections where
  interface : Option Span := none
  implementation : Option Span := none
  tail : Option Span := none
deriving DecidableEq, Repr

namespace Sections

def inInterface (s : Sections) (n : Nat) : Bool := s.interface.any (·.contains n)

/-- Where the implementation may be, in a text of a given length. -/
def implementationSpan (s : Sections) (length : Nat) : Span := s.implementation.getD ⟨0, length⟩

end Sections

/-- Where sections start: behind the word `interface`, at the word `implementation`, and at the word
that starts the rest. -/
structure SectionMarks where
  interface : Option Nat := none
  implementation : Option Nat := none
  tail : Option Nat := none

namespace SectionMarks

/-- Notes one more word. The word `interface` starts a section only at the start of a statement. -/
def note (m : SectionMarks) (w : Word) : SectionMarks :=
  match w.lower with
  | "interface" =>
    if m.interface.isNone && m.implementation.isNone &&
        w.first.lastSignificant?.all (· == ';') then
      { m with interface := some w.stop }
    else m
  | "implementation" =>
    if m.implementation.isNone then { m with implementation := some w.start } else m
  | "initialization" | "finalization" =>
    if m.implementation.isSome && m.tail.isNone then { m with tail := some w.start } else m
  | _ => m

/-- The sections between the marks, in a text of a given length whose header ends at `start`. -/
def sections (m : SectionMarks) (start length : Nat) : Sections :=
  -- The word `implementation` has fourteen letters.
  let behindKeyword (n : Nat) : Span := ⟨n + 14, m.tail.getD length⟩
  { interface := m.interface.map fun n => ⟨n, m.implementation.getD length⟩
    implementation :=
      match m.implementation, m.interface with
      | some n, _ => some (behindKeyword n)
      | none, some _ => none
      -- Without sections, as in a program, all behind the header is implementation.
      | none, none => some ⟨start, length⟩
    tail := m.tail.map fun n => ⟨n, length⟩ }

end SectionMarks

/-- The sections of a text whose header ends at byte `start`. -/
def Sections.find (code : List Char) (start : Nat) : Sections :=
  ((((Cursor.ofText code).seek start).words).foldl SectionMarks.note {}).sections start (width code)

def leadingDotted? (item : List Char) : Option String :=
  let name := trimWhere (· == '.') ((trimStart item).takeWhile fun c => isIdent c || c == '.')
  if name.head?.any isIdentStart then some (String.ofList name) else none

def Sections.scopeAt (s : Sections) (n : Nat) : DependencyScope :=
  match s.interface, s.implementation with
  | some _, some implementation => if implementation.start ≤ n then .implementation else .interface
  | _, _ => .interface

/-- The units named behind each word `uses`, with the scope of the clause. -/
def usedUnits (code : List Char) (s : Sections) : List Dependency :=
  ((words code).filter (·.lower == "uses")).flatMap fun w =>
    ((splitTopLevel ',' (before ';' w.behind.after)).filterMap leadingDotted?).map fun name =>
      ⟨name, s.scopeAt w.start⟩

/-- The units that a text uses, each once under the scope of its first mention. -/
def dependencies (code : List Char) (s : Sections) : List Dependency :=
  (usedUnits code s).foldl
    (fun found d =>
      if found.any fun e => e.name.toLower == d.name.toLower then found else found ++ [d])
    []

end MigrationAudit.Pascal
