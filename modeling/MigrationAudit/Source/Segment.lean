import MigrationAudit.Text.Split

/-!
# Comments and literals

A source text is cut into segments: single characters of code, whole comments and whole literals.
The segments, put together again, are the text; this also bounds the cutting itself.
-/

namespace MigrationAudit.Source

open Text

inductive Syntax
  /-- Comments in braces, in `(* *)`, or behind two slashes; single quotes, doubled inside. -/
  | pascal
  /-- Comments in `/* */` or behind two slashes; single, double and triple quotes, escaped
  inside. -/
  | java
deriving DecidableEq, Repr

/-- A part of a literal, as it is written and as it reads. -/
structure Piece where
  source : List Char
  value : List Char
deriving DecidableEq, Repr

def Piece.plain (c : Char) : Piece := ⟨[c], [c]⟩

/-- What follows the opening quote of a literal: its pieces, whether it is closed, and the rest of
the text behind it. -/
structure Body where
  pieces : List Piece
  closed : Bool
  rest : List Char

namespace Body

def push (b : Body) (p : Piece) : Body := { b with pieces := p :: b.pieces }

def source (b : Body) (quote : List Char) : List Char :=
  b.pieces.flatMap (·.source) ++ bif b.closed then quote else []

@[simp] theorem source_push (b : Body) (p : Piece) (quote : List Char) :
    (b.push p).source quote = p.source ++ b.source quote := by
  simp [push, source]

@[simp] theorem rest_push (b : Body) (p : Piece) : (b.push p).rest = b.rest := rfl

/-- A literal in single quotes ends at a quote that is not doubled, or at the end of the line. -/
def doubled : List Char → Body
  | [] => ⟨[], false, []⟩
  | '\n' :: rest => ⟨[], false, '\n' :: rest⟩
  | '\'' :: '\'' :: rest => (doubled rest).push ⟨['\'', '\''], ['\'']⟩
  | '\'' :: rest => ⟨[], true, rest⟩
  | c :: rest => (doubled rest).push (.plain c)

/-- What an escaped character reads as: the escapes of line ends and tabs are spaces. -/
def unescape (c : Char) : Char := if c == 'n' || c == 't' || c == 'r' then ' ' else c

/-- A literal with escapes ends at a quote that is not escaped, or at the end of the line. -/
def escaped (quote : Char) : List Char → Body
  | [] => ⟨[], false, []⟩
  | '\n' :: rest => ⟨[], false, '\n' :: rest⟩
  | ['\\'] => ⟨[⟨['\\'], []⟩], false, []⟩
  -- A line end cannot be escaped.
  | '\\' :: '\n' :: rest => ⟨[⟨['\\'], []⟩], false, '\n' :: rest⟩
  | '\\' :: c :: rest => (escaped quote rest).push ⟨['\\', c], [unescape c]⟩
  | c :: rest => if c == quote then ⟨[], true, rest⟩ else (escaped quote rest).push (.plain c)

/-- A text block ends at the first three double quotes in a row. -/
def block : List Char → Body
  | [] => ⟨[], false, []⟩
  | '"' :: '"' :: '"' :: rest => ⟨[], true, rest⟩
  -- A backslash is a character like any other here, also in front of a quote.
  | c :: rest => (block rest).push (.plain c)

theorem source_doubled (cs : List Char) : (doubled cs).source ['\''] ++ (doubled cs).rest = cs := by
  fun_induction doubled cs <;> simp_all [source, push, Piece.plain]

theorem source_escaped (quote : Char) (cs : List Char) :
    (escaped quote cs).source [quote] ++ (escaped quote cs).rest = cs := by
  fun_induction escaped quote cs <;> simp_all [source, push, Piece.plain]

theorem source_block (cs : List Char) :
    (block cs).source ['"', '"', '"'] ++ (block cs).rest = cs := by
  fun_induction block cs <;> simp_all [source, push, Piece.plain]

end Body

inductive Segment
  | code (c : Char)
  | comment (text : List Char)
  | literal (quote : List Char) (pieces : List Piece) (closed : Bool)
deriving DecidableEq, Repr

def Body.segment (b : Body) (quote : List Char) : Segment := .literal quote b.pieces b.closed

/-- The text through the first `close`, and what follows; all of it when there is no `close`. -/
def throughClose (close : List Char) : List Char → List Char × List Char
  | [] => ([], [])
  | c :: cs =>
    if close.isPrefixOf (c :: cs) then ((c :: cs).take close.length, (c :: cs).drop close.length)
    else ((c :: (throughClose close cs).1), (throughClose close cs).2)

theorem throughClose_append (close cs : List Char) :
    (throughClose close cs).1 ++ (throughClose close cs).2 = cs := by
  induction cs with
  | nil => rfl
  | cons c cs ih =>
    simp only [throughClose]
    split
    · exact List.take_append_drop ..
    · simpa using ih

/-- The comment whose first character is `c`, with the rest of the text. Its end is looked for right
behind that character. -/
def blockComment (close : List Char) (c : Char) (cs : List Char) : Segment × List Char :=
  (.comment (c :: (throughClose close cs).1), (throughClose close cs).2)

def lineComment (c : Char) (cs : List Char) : Segment × List Char :=
  (.comment (c :: cs.takeWhile (· != '\n')), cs.dropWhile (· != '\n'))

def firstSegment (s : Syntax) (c : Char) (cs : List Char) : Segment × List Char :=
  match s, c, cs with
  | _, '/', '/' :: _ => lineComment c cs
  | .pascal, '\x7b', _ => blockComment ['\x7d'] c cs
  | .pascal, '(', '*' :: _ => blockComment ['*', ')'] c cs
  | .java, '/', '*' :: _ => blockComment ['*', '/'] c cs
  | .pascal, '\'', _ => ((Body.doubled cs).segment ['\''], (Body.doubled cs).rest)
  -- Three quotes come before one, since the first two would be an empty literal.
  | .java, '"', '"' :: '"' :: body =>
    ((Body.block body).segment ['"', '"', '"'], (Body.block body).rest)
  | .java, '"', _ => ((Body.escaped '"' cs).segment ['"'], (Body.escaped '"' cs).rest)
  | .java, '\'', _ => ((Body.escaped '\'' cs).segment ['\''], (Body.escaped '\'' cs).rest)
  | _, _, _ => (.code c, cs)

namespace Segment

def source : Segment → List Char
  | .code c => [c]
  | .comment text => text
  | .literal quote pieces closed =>
    quote ++ pieces.flatMap (·.source) ++ bif closed then quote else []

@[simp] theorem source_code (c : Char) : (code c).source = [c] := rfl

@[simp] theorem source_comment (text : List Char) : (comment text).source = text := rfl

def value : Segment → List Char
  | .literal _ pieces _ => pieces.flatMap (·.value)
  | _ => []

end Segment

@[simp] theorem source_segment (b : Body) (quote : List Char) :
    (b.segment quote).source = quote ++ b.source quote := by
  simp [Body.segment, Segment.source, Body.source]

theorem source_firstSegment (s : Syntax) (c : Char) (cs : List Char) :
    (firstSegment s c cs).1.source ++ (firstSegment s c cs).2 = c :: cs := by
  unfold firstSegment
  split <;>
    simp [lineComment, blockComment, Segment.source_comment, Segment.source_code,
      throughClose_append, Body.source_doubled, Body.source_escaped, Body.source_block]

theorem length_firstSegment (s : Syntax) (c : Char) (cs : List Char) :
    (firstSegment s c cs).2.length < cs.length + 1 := by
  have h := congrArg List.length (source_firstSegment s c cs)
  have hpos : 0 < (firstSegment s c cs).1.source.length := by
    unfold firstSegment
    split <;> simp [lineComment, blockComment]
  simp only [List.length_append, List.length_cons] at h
  omega

def segments (s : Syntax) : List Char → List Segment
  | [] => []
  | c :: cs => (firstSegment s c cs).1 :: segments s (firstSegment s c cs).2
termination_by cs => cs.length
decreasing_by exact length_firstSegment s c cs

@[simp] theorem source_segments (s : Syntax) (cs : List Char) :
    (segments s cs).flatMap Segment.source = cs := by
  fun_induction segments s cs with
  | case1 => rfl
  | case2 c cs ih => simpa [ih] using source_firstSegment s c cs

end MigrationAudit.Source
