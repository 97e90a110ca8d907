import MigrationAudit.Json.Value
import MigrationAudit.Decimal.Layout

/-!
# JSON text

A value is written on one line without spaces, or on indented lines.
-/

namespace MigrationAudit.Json

/-- The escape sequence of a character below the space. -/
def controlEscape (c : Char) : List Char :=
  match c with
  | '\x08' => ['\\', 'b']
  | '\t' => ['\\', 't']
  | '\n' => ['\\', 'n']
  | '\x0c' => ['\\', 'f']
  | '\r' => ['\\', 'r']
  | c => ['\\', 'u', '0', '0', Nat.digitChar (c.toNat / 16), Nat.digitChar (c.toNat % 16)]

def escape (c : Char) : List Char :=
  if c == '"' then ['\\', '"']
  else if c == '\\' then ['\\', '\\']
  else if c.toNat < 0x20 then controlEscape c
  else [c]

def quote (s : String) : String := String.ofList ('"' :: s.toList.flatMap escape ++ ['"'])

/-- The text of a number; one that is not finite is written `null`. -/
def number (x : Float) : String := (Decimal.interchange? x).getD "null"

mutual

/-- The text on one line, without spaces. -/
def compact : Json → String
  | .null => "null"
  | .noValue => "null"
  | .bool b => if b then "true" else "false"
  | .int i => toString i
  | .real x => number x
  | .str s => quote s
  | .arr items => "[" ++ ",".intercalate (compactItems items) ++ "]"
  | .obj entries => "\x7b" ++ ",".intercalate (compactEntries entries) ++ "\x7d"

def compactItems : List Json → List String
  | [] => []
  | j :: js => compact j :: compactItems js

def compactEntries : List (String × Json) → List String
  | [] => []
  | (k, j) :: rest => (quote k ++ ":" ++ compact j) :: compactEntries rest

end

def newLine (level : Nat) : String := String.ofList ('\n' :: List.replicate (2 * level) ' ')

mutual

/-- The text on indented lines, when the value stands at the given level. Empty lists and objects
stay on one line. -/
def pretty (level : Nat) : Json → String
  | .arr [] => "[]"
  | .obj [] => "\x7b\x7d"
  | .arr items =>
    "[" ++ ",".intercalate (prettyItems (level + 1) items) ++ newLine level ++ "]"
  | .obj entries =>
    "\x7b" ++ ",".intercalate (prettyEntries (level + 1) entries) ++ newLine level ++ "\x7d"
  | j => compact j

def prettyItems (level : Nat) : List Json → List String
  | [] => []
  | j :: js => (newLine level ++ pretty level j) :: prettyItems level js

def prettyEntries (level : Nat) : List (String × Json) → List String
  | [] => []
  | (k, j) :: rest =>
    (newLine level ++ quote k ++ ": " ++ pretty level j) :: prettyEntries level rest

end

end MigrationAudit.Json
