import Std.Data.HashMap
import MigrationAudit.Facts.Basic
import MigrationAudit.Facts.Lists
import MigrationAudit.Pascal.Header

/-!
# Bodies, declarations and implementations

The branches of a body are counted by its words. A name counts as a call when an opening parenthesis
follows it, or when it is a statement of its own.

A routine may be declared in one place and implemented in another. The implementation completes the
first declaration without a body that has its name and as many parameters; one that leaves its
parameters out completes the first that has its name.
-/

namespace MigrationAudit.Pascal

open Text

/-! ## Bodies -/

def branchKeywords : List String := ["if", "while", "for", "repeat", "case", "try", "and", "or"]

/-- One more than the number of branching words. -/
def complexity (body : List Char) : Nat := 1 + countKeywords body branchKeywords false

/-- Words that are never calls. -/
def reservedWords : List String :=
  ["and", "array", "as", "asm", "begin", "case", "class", "const", "constructor", "destructor",
    "div", "do", "downto", "else", "end", "except", "exit", "file", "finally", "for", "function",
    "goto", "if", "in", "inherited", "is", "mod", "nil", "not", "of", "or", "procedure", "raise",
    "record", "repeat", "set", "shl", "shr", "then", "to", "try", "type", "until", "uses", "var",
    "while", "with", "xor", "result", "self", "true", "false", "break", "continue", "on"]

/-- Words behind which a statement starts. -/
def statementStarters : List String :=
  ["begin", "then", "else", "do", "try", "finally", "except", "repeat"]

/-- Words before which a statement ends. -/
def statementClosers : List String := ["end", "else", "until"]

/-- Whether a statement starts at a word, when `previous` is the word before it. -/
def startsStatement (previous : Option Word) (w : Word) : Bool :=
  match w.first.lastSignificant? with
  | none => true
  | some c => c == ';' || (isIdent c && previous.any (·.isOneOf statementStarters))

def endsStatement (after : List Char) : Bool :=
  match after with
  | [] => true
  | c :: _ =>
    c == ';' || (leadingWord? after).any fun (word, _) => statementClosers.contains (lowered word)

/-- Whether a word is a call, when `previous` is the word before it. -/
def isCall (previous : Option Word) (w : Word) : Bool :=
  !w.isOneOf reservedWords && !w.startsWithDigit && w.first.lastSignificant? != some '.' &&
    (let after := trimStart w.behind.after
     after.head? == some '(' || (startsStatement previous w && endsStatement after))

/-- The names that are called, each once, in the order of their first calls. -/
def callHints (body : List Char) : List String :=
  let ws := words body
  ((none :: ws.map some).zip ws).foldl
    (fun names (previous, w) =>
      if isCall previous w then pushUnique names (String.ofList w.text) else names)
    []

/-! ## Declarations and implementations -/

/-- Whether a declaration waits for an implementation of a name. -/
def awaits (name : String) (r : Routine) : Bool := !r.hasBody && r.name.toLower == name.toLower

/-- The first of the candidate positions where a declaration belongs to an implementation. -/
def findDeclaration? (declared : Array Routine) (candidates : List Nat) (implementation : Routine) :
    Option Nat :=
  let waiting (i : Nat) := declared[i]?.any (awaits implementation.name)
  let sameArity (i : Nat) := declared[i]?.any fun r => r.arity == implementation.arity
  match candidates.find? fun i => waiting i && sameArity i with
  | some i => some i
  -- An implementation need not repeat the parameters.
  | none => if implementation.params.isEmpty then candidates.find? waiting else none

def absorb (declaration implementation : Routine) : Routine :=
  { declaration with
    hasBody := implementation.hasBody
    complexity := implementation.complexity
    callHints := implementation.callHints
    directives := implementation.directives.foldl pushUnique declaration.directives }

/-- Adds an implementation to a class: to the method it implements, or else as a method. -/
def mergeMethod (methods : List Routine) (implementation : Routine) : List Routine :=
  let declared := methods.toArray
  match findDeclaration? declared (List.range methods.length) implementation with
  | some i => methods.modify i (absorb · implementation)
  | none => methods ++ [implementation]

/-- Free routines in order, with the positions of the routines of each lower-case name. -/
structure RoutineTable where
  routines : Array Routine := #[]
  positions : Std.HashMap String (List Nat) := ∅

namespace RoutineTable

def positionsOf (t : RoutineTable) (name : String) : List Nat := t.positions.getD name.toLower []

def push (t : RoutineTable) (r : Routine) : RoutineTable :=
  { routines := t.routines.push r
    positions := t.positions.insert r.name.toLower (t.positionsOf r.name ++ [t.routines.size]) }

/-- Completes the declaration of an implementation, or adds the implementation, with a visibility when
it has none. -/
def merge (t : RoutineTable) (implementation : Routine) (visibility : Option Visibility) :
    RoutineTable :=
  match findDeclaration? t.routines (t.positionsOf implementation.name) implementation with
  | some i => { t with routines := t.routines.modify i (absorb · implementation) }
  | none => t.push { implementation with visibility := implementation.visibility.or visibility }

end RoutineTable

end MigrationAudit.Pascal
