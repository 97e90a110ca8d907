import MigrationAudit.Json.Number

/-!
# Reading JSON text

A text is one value with white space around it. Its tree may nest to any depth and may have parts
without a value, for a reader who passes over them. As a value by itself a text nests at most 127
deep, and of repeated keys the last one counts.
-/

namespace MigrationAudit.Json

/-- White space between the tokens of JSON. -/
def isSpace (c : Char) : Bool := c == ' ' || c == '\t' || c == '\n' || c == '\r'

def skipSpace (cs : List Char) : List Char := cs.dropWhile isSpace

def hexValue? (c : Char) : Option Nat :=
  if c.isDigit then some (c.toNat - '0'.toNat)
  else if 'a' ≤ c ∧ c ≤ 'f' then some (c.toNat - 'a'.toNat + 10)
  else if 'A' ≤ c ∧ c ≤ 'F' then some (c.toNat - 'A'.toNat + 10)
  else none

/-- The code unit written by four hexadecimal digits. -/
def unit? (a b c d : Char) : Option Nat := do
  some (((← hexValue? a) * 16 + (← hexValue? b)) * 256 + (← hexValue? c) * 16 + (← hexValue? d))

def simpleEscape? : Char → Option Char
  | '"' => some '"'
  | '\\' => some '\\'
  | '/' => some '/'
  | 'b' => some '\x08'
  | 'f' => some '\x0c'
  | 'n' => some '\n'
  | 'r' => some '\r'
  | 't' => some '\t'
  | _ => none

def isSurrogate (n : Nat) : Bool := 0xD800 ≤ n && n < 0xE000

def pair? (n m : Nat) : Option Char :=
  if 0xD800 ≤ n && n < 0xDC00 && 0xDC00 ≤ m && m < 0xE000 then
    some (Char.ofNat (0x10000 + (n - 0xD800) * 0x400 + (m - 0xDC00)))
  else none

/-- The characters of a string read so far, last first, unless half a surrogate pair stood alone
among them; and the first half of a pair, when it was the last thing read. -/
structure StringDraft where
  chars : Option (List Char) := some []
  half : Option Nat := none

namespace StringDraft

def push (d : StringDraft) (c : Char) : StringDraft :=
  { chars := if d.half.isSome then none else d.chars.map (c :: ·) }

def pushUnit (d : StringDraft) (n : Nat) : StringDraft :=
  match d.half with
  | some high => { chars := (pair? high n).bind fun c => d.chars.map (c :: ·) }
  | none => if isSurrogate n then { d with half := some n } else d.push (Char.ofNat n)

def finish (d : StringDraft) : Option String :=
  if d.half.isSome then none else d.chars.map fun cs => String.ofList cs.reverse

end StringDraft

/-- A string behind its opening quote, and the text behind its closing quote. A control character is
refused. -/
def readString? (d : StringDraft) : List Char → Option (Option String × List Char)
  | [] => none
  | '"' :: rest => some (d.finish, rest)
  | '\\' :: 'u' :: a :: b :: c :: e :: rest =>
    match unit? a b c e with
    | some n => readString? (d.pushUnit n) rest
    | none => none
  | '\\' :: c :: rest =>
    match simpleEscape? c with
    | some e => readString? (d.push e) rest
    | none => none
  | c :: rest => if c.toNat < 0x20 || c == '\\' then none else readString? (d.push c) rest

/-- An object with the given fields, if its keys have values. -/
def ofFields (fields : List (Option String × Json)) : Json :=
  let named? (field : Option String × Json) : Option (String × Json) := field.1.map (·, field.2)
  ((fields.mapM named?).map obj).getD .noValue

mutual

def readValue? : Nat → List Char → Option (Json × List Char)
  | 0, _ => none
  | fuel + 1, cs =>
    match skipSpace cs with
    | 'n' :: 'u' :: 'l' :: 'l' :: rest => some (.null, rest)
    | 't' :: 'r' :: 'u' :: 'e' :: rest => some (.bool true, rest)
    | 'f' :: 'a' :: 'l' :: 's' :: 'e' :: rest => some (.bool false, rest)
    | '"' :: rest => (readString? {} rest).map fun (s, rest) => (s.elim .noValue .str, rest)
    | '[' :: rest =>
      match skipSpace rest with
      | ']' :: rest => some (.arr [], rest)
      | rest => (readItems? fuel rest).map fun (js, rest) => (.arr js, rest)
    | '\x7b' :: rest =>
      match skipSpace rest with
      | '\x7d' :: rest => some (.obj [], rest)
      | rest => (readFields? fuel rest).map fun (fields, rest) => (ofFields fields, rest)
    | rest => readNumber? rest

/-- The members of a list up to its closing bracket. -/
def readItems? : Nat → List Char → Option (List Json × List Char)
  | 0, _ => none
  | fuel + 1, cs =>
    match readValue? fuel cs with
    | none => none
    | some (j, rest) =>
      match skipSpace rest with
      | ',' :: rest => (readItems? fuel rest).map fun (js, rest) => (j :: js, rest)
      | ']' :: rest => some ([j], rest)
      | _ => none

/-- The fields of an object up to its closing brace. -/
def readFields? : Nat → List Char → Option (List (Option String × Json) × List Char)
  | 0, _ => none
  | fuel + 1, cs =>
    match skipSpace cs with
    | '"' :: rest =>
      match readString? {} rest with
      | none => none
      | some (key, rest) =>
        match skipSpace rest with
        | ':' :: rest =>
          match readValue? fuel rest with
          | none => none
          | some (j, rest) =>
            match skipSpace rest with
            | ',' :: rest =>
              (readFields? fuel rest).map fun (fields, rest) => ((key, j) :: fields, rest)
            | '\x7d' :: rest => some ([(key, j)], rest)
            | _ => none
        | _ => none
    | _ => none

end

/-- The tree of a text, which may have parts without a value. Each call of a reader takes at least
one character, so their number bounds the calls. -/
def tree? (s : String) : Option Json :=
  let cs := s.toList
  match readValue? (2 * cs.length + 2) cs with
  | some (j, rest) => if (skipSpace rest).isEmpty then some j else none
  | none => none

/-! ## Values as a whole -/

mutual

/-- Whether everything in a tree has a value, and values nest at most `depth` deep. -/
def isValue (depth : Nat) : Json → Bool
  | .noValue => false
  | .arr items => decide (0 < depth) && areValues (depth - 1) items
  | .obj entries => decide (0 < depth) && haveValues (depth - 1) entries
  | _ => true

/-- Whether the members of a list have values. -/
def areValues (depth : Nat) : List Json → Bool
  | [] => true
  | j :: js => isValue depth j && areValues depth js

/-- Whether the fields of an object have values. -/
def haveValues (depth : Nat) : List (String × Json) → Bool
  | [] => true
  | (_, j) :: rest => isValue depth j && haveValues depth rest

end

mutual

/-- The tree in which of the fields with one key only the last is left. -/
def settled : Json → Json
  | .arr items => .arr (settledItems items)
  | .obj entries => .obj (settledEntries entries)
  | j => j

def settledItems : List Json → List Json
  | [] => []
  | j :: js => settled j :: settledItems js

def settledEntries : List (String × Json) → List (String × Json)
  | [] => []
  | (key, j) :: rest =>
    -- A later field with the key takes its place.
    if rest.any (·.1 == key) then settledEntries rest else (key, settled j) :: settledEntries rest

end

/-- How deep a value may nest. -/
def nestingLimit : Nat := 127

def parse? (s : String) : Option Json :=
  (tree? s).bind fun j => if isValue nestingLimit j then some (settled j) else none

end MigrationAudit.Json
