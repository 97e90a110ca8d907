import MigrationAudit.Facts.Basic
import MigrationAudit.Text.Bracket
import MigrationAudit.Text.Split
import MigrationAudit.Text.Word

/-!
# Routine headers

A header is a keyword, a name that may be qualified by a class, a parameter list in parentheses, and
a result type. Parameters are declared in groups, which share a modifier and a type.
-/

namespace MigrationAudit.Pascal

open Text

def routineKind? : String → Option RoutineKind
  | "procedure" => some .procedure
  | "function" => some .function
  | "constructor" => some .constructor
  | "destructor" => some .destructor
  | _ => none

def paramModifiers : List String := ["const", "var", "out", "constref"]

def directives : List String :=
  ["virtual", "override", "abstract", "overload", "reintroduce", "dynamic", "static", "final",
    "inline", "stdcall", "cdecl", "register", "safecall", "pascal", "message", "deprecated",
    "platform", "experimental", "assembler", "varargs", "forward", "external"]

def lowered (cs : List Char) : String := String.ofList (lowerLatin cs)

structure Header where
  kind : RoutineKind
  owner : Option String
  name : String
  params : List Param
  returnType : Option String
  isClassLevel : Bool
deriving DecidableEq, Repr

def Header.toRoutine (h : Header) (line : Nat) : Routine :=
  { name := h.name
    owner := h.owner
    kind := h.kind
    params := h.params
    returnType := h.returnType
    isClassLevel := h.isClassLevel
    line }

def groupModifier (group : List Char) : Option String × List Char :=
  match leadingWord? group with
  | some (word, rest) =>
    if paramModifiers.contains (lowered word) && rest.head?.any isBlank then
      (some (lowered word), trimStart rest)
    else (none, group)
  | none => (none, group)

def identifiers (names : List Char) : List String :=
  ((((splitAll ',' names).map trim).filter isIdentifier).map String.ofList)

/-- The parameters of one group: names, a type, and a default value that is not kept. -/
def groupParams (group : List Char) : List Param :=
  let (modifier, group) := groupModifier group
  let (names, typeName) :=
    match splitFirst? ':' group with
    | some (names, type) => (names, squashed? (before '=' type))
    | none => (group, none)
  (identifiers names).map fun name => { name, typeName, modifier }

def parseParams (cs : List Char) : List Param := (splitTopLevel ';' cs).flatMap groupParams

/-- The text in the parentheses at the start of a text, and the text behind them. Without a closing
parenthesis all of it lies inside. -/
def parenthesized (cs : List Char) : List Char × List Char :=
  match splitAtClose? '(' ')' cs with
  | some (inside, rest) => (inside.drop 1, rest)
  | none => (cs.drop 1, [])

/-- The class in front of the last dot of a name, and the name behind it. -/
def splitQualified (cs : List Char) : Option String × String :=
  match splitLast? '.' cs with
  | some (owner, name) => (some (String.ofList owner), String.ofList name)
  | none => (none, String.ofList cs)

def Header.afterKeyword? (kind : RoutineKind) (isClassLevel : Bool) (cs : List Char) :
    Option Header :=
  let cs := trimStart cs
  let isNamePart (c : Char) := isIdent c || c == '.'
  match trimWhere (· == '.') (cs.takeWhile isNamePart) with
  | [] => none
  | qualified =>
    let (owner, name) := splitQualified qualified
    let rest := trimStart (cs.dropWhile isNamePart)
    let (params, rest) :=
      match rest with
      | '(' :: _ =>
        let (inside, rest) := parenthesized rest
        (parseParams inside, trimStart rest)
      | _ => ([], rest)
    let returnType :=
      match rest with
      | ':' :: type => squashed? type
      | _ => none
    some { kind, owner, name, params, returnType, isClassLevel }

/-- Reads a header, which the text must not extend beyond. -/
def Header.parse? (cs : List Char) : Option Header :=
  match leadingWord? cs with
  | none => none
  | some (word, rest) =>
    if lowered word == "class" then
      match leadingWord? rest with
      | none => none
      | some (word, rest) => (routineKind? (lowered word)).bind (afterKeyword? · true rest)
    else (routineKind? (lowered word)).bind (afterKeyword? · false rest)

end MigrationAudit.Pascal
