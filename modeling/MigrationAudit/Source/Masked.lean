import MigrationAudit.Facts.Basic
import MigrationAudit.Source.Segment
import MigrationAudit.Text.Span

/-!
# Masked sources

The masked text keeps the code, the line ends and the outer quotes of literals, and has a space for
every other byte. Positions in it are positions in the source. Lines are numbered and counted
without an upper limit; where facts are exchanged, such numbers have 32 bits. Declarations own the
text that they cover; where several do, the one that covers the least counts.
-/

namespace MigrationAudit.Source

open Text

/-- The spaces that stand for a character; a line end stays. -/
def blank (c : Char) : List Char :=
  if c == '\n' then ['\n'] else List.replicate c.utf8Size ' '

/-- What a character contributes to its line. -/
inductive Mark
  | code
  | comment
  | nothing
deriving DecidableEq, Repr

namespace Segment

def masked : Segment → List Char
  | .code c => [c]
  | .comment text => text.flatMap blank
  | .literal quote pieces closed =>
    quote ++ pieces.flatMap (·.source.flatMap blank) ++ bif closed then quote else []

/-- What each character of a segment contributes to its line. -/
def marks (s : Segment) : List (Char × Mark) :=
  match s with
  | .code c => [(c, if isBlank c then .nothing else .code)]
  | .comment text => text.map (·, .comment)
  -- White space inside a literal is code as well.
  | s => s.source.map (·, .code)

end Segment

/-- A literal: where it stands, with its quotes, and what it reads as. -/
structure Literal where
  span : Span
  value : List Char
deriving DecidableEq, Repr

/-- The literals among segments that start at byte `n`. -/
def literalsFrom (n : Nat) : List Segment → List Literal
  | [] => []
  | s :: rest =>
    let stop := n + width s.source
    match s with
    | .literal .. => ⟨⟨n, stop⟩, s.value⟩ :: literalsFrom stop rest
    | _ => literalsFrom stop rest

/-- A line: where it starts, and whether code or comment lies on it. -/
structure Line where
  start : Nat
  hasCode : Bool
  hasComment : Bool
deriving DecidableEq, Repr

namespace Line

def startingAt (n : Nat) : Line := ⟨n, false, false⟩

def note (l : Line) : Mark → Line
  | .code => { l with hasCode := true }
  | .comment => { l with hasComment := true }
  | .nothing => l

end Line

/-- The line that is going on at byte `n`, completed, and the lines behind it. -/
def linesFrom (n : Nat) (current : Line) : List (Char × Mark) → List Line
  | [] => [current]
  | (c, m) :: rest =>
    if c == '\n' then current :: linesFrom (n + 1) (.startingAt (n + 1)) rest
    else linesFrom (n + c.utf8Size) (current.note m) rest

/-- How many lines there are, and how many of them hold code, only comment, or neither. -/
structure LineCounts where
  total : Nat
  code : Nat
  comment : Nat
  blank : Nat
deriving DecidableEq, Repr

/-- A source with its comments and the contents of its literals masked. -/
structure Masked where
  code : List Char
  literals : List Literal
  lines : List Line

namespace Masked

def of (s : Syntax) (cs : List Char) : Masked :=
  let parts := segments s cs
  { code := parts.flatMap Segment.masked
    literals := literalsFrom 0 parts
    lines := linesFrom 0 (.startingAt 0) (parts.flatMap Segment.marks) }

/-- The number of the line on which byte `n` lies; the first line is 1. -/
def lineAt (m : Masked) (n : Nat) : Nat := m.lines.countP (·.start ≤ n)

def literalsIn (m : Masked) (s : Span) : List Literal := m.literals.filter (s.contains ·.span.start)

/-- The lines of the text. A line end at the very end opens no further line. -/
def countedLines (m : Masked) : List Line :=
  if m.code.getLast?.all (· == '\n') then m.lines.dropLast else m.lines

def lineCounts (m : Masked) : LineCounts :=
  let lines := m.countedLines
  { total := lines.length
    code := lines.countP (·.hasCode)
    comment := lines.countP fun l => !l.hasCode && l.hasComment
    blank := lines.countP fun l => !l.hasCode && !l.hasComment }

def metrics (m : Masked) (maxNestingDepth : Nat) : SizeMetrics :=
  let counts := m.lineCounts
  { totalLines := counts.total
    codeLines := counts.code
    commentLines := counts.comment
    blankLines := counts.blank
    maxNestingDepth }

end Masked

/-! ## Owners -/

/-- The part of a text that belongs to a declaration. -/
structure OwnerSpan where
  span : Span
  name : String
deriving DecidableEq, Repr

/-- The shorter of two owners, the first one when they are equally short. -/
def OwnerSpan.shorter (a b : OwnerSpan) : OwnerSpan :=
  if b.span.length < a.span.length then b else a

def shortest? : List OwnerSpan → Option OwnerSpan
  | [] => none
  | o :: rest => some (rest.foldl OwnerSpan.shorter o)

def ownerAt? (owners : List OwnerSpan) (n : Nat) : Option String :=
  (shortest? (owners.filter (·.span.contains n))).map (·.name)

end MigrationAudit.Source
