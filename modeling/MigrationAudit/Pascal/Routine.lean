import MigrationAudit.Pascal.Header
import MigrationAudit.Pascal.Statement
import MigrationAudit.Text.Block

/-!
# Routines of an implementation

A routine is a header with directives, local declarations, among them routines, and a body. Routines
that are still in their local declarations are kept on a stack, which is never deeper than a given
limit. A header that no body follows is a declaration.
-/

namespace MigrationAudit.Pascal

open Text

structure RoutineNode where
  header : Header
  start : Nat
  stop : Nat
  directives : List String := []
  body : Option Span := none
  unterminated : Bool := false
  nestingCapped : Bool := false
  maxDepth : Nat := 0
  nested : List RoutineNode := []
deriving Repr

namespace RoutineNode

def push (r : RoutineNode) (child : RoutineNode) : RoutineNode :=
  { r with nested := r.nested ++ [child] }

end RoutineNode

/-- Whether a routine keyword at the cursor starts a declaration, rather than a procedural type. -/
def isRoutineStart (c : Cursor) : Bool :=
  match c.lastSignificant? with
  | some a => !(['=', ':', '(', ','].contains a)
  | none => true

/-- The cursor at the word `class` that stands right before, if there is one. -/
def classPrefix? (c : Cursor) : Option Cursor :=
  let blanks := c.before.takeWhile isBlank
  let before := c.before.dropWhile isBlank
  -- What stands in front of a cursor is listed backwards, and so is the word.
  if lowered (before.take 5) == "ssalc" && !(before.drop 5).head?.any isIdent then
    some (c.back (blanks.length + 5))
  else none

def bodyStep (w : Word) : BlockStep :=
  match w.lower with
  | "begin" | "case" | "try" | "asm" => .opens
  | "end" => .closes
  | "implementation" | "initialization" | "finalization" => .aborts
  | _ => .skips

/-- The cursor behind a semicolon that follows, or the same cursor when none does. -/
def pastSemicolon (c : Cursor) : Cursor :=
  match c.skipBlank.after with
  | ';' :: _ => c.skipBlank.next
  | _ => c

def readDirectives (c : Cursor) : List String × Cursor :=
  match _h : c.adjacentWord? with
  | none => ([], c)
  | some w =>
    if directives.contains w.lower then
      let (more, rest) := readDirectives (pastStatement w.first)
      (w.lower :: more, rest)
    else ([], c)
termination_by c.after.length
decreasing_by
  exact Nat.lt_of_lt_of_le (length_pastStatement_lt (Cursor.after_of_adjacentWord? _h))
    (Cursor.leads_adjacentWord? _h).1.length_le

structure Declaration where
  node : RoutineNode
  behind : Cursor

namespace Declaration

/-- Whether the routine is declared here and has its body elsewhere. -/
def isForward (d : Declaration) : Bool :=
  d.node.directives.contains "forward" || d.node.directives.contains "external"

def read? (c : Cursor) : Option Declaration :=
  match Header.parse? (statementText c) with
  | none => none
  | some header =>
    let (directives, behind) := readDirectives (pastStatement c)
    some ⟨{ header, start := c.offset, stop := behind.offset, directives }, behind⟩

end Declaration

/-- The statements of a body that is open at the cursor. -/
def bodySpan (b : BlockScan) (c : Cursor) : Span :=
  match b.ending with
  | .closed w => ⟨c.offset, w.start⟩
  | .aborted w => ⟨c.offset, w.start⟩
  | .unterminated => ⟨c.offset, c.toEnd.offset⟩

/-- The cursor behind a body that is open at the cursor, and behind its semicolon. -/
def bodyStop (b : BlockScan) (c : Cursor) : Cursor :=
  match b.ending with
  | .closed w => pastSemicolon w.behind
  | .aborted w => w.first
  | .unterminated => c.toEnd

/-- Reads the body at the cursor into a routine; returns the cursor behind it as well. -/
def readBody (r : RoutineNode) (c : Cursor) : RoutineNode × Cursor :=
  let scan := scanBlock bodyStep c
  let behind := bodyStop scan c
  ({ r with
      body := some (bodySpan scan c)
      stop := behind.offset
      unterminated := !scan.isClosed
      maxDepth := scan.maxDepth }, behind)

theorem leads_pastSemicolon (c : Cursor) : c.Leads (pastSemicolon c) := by
  unfold pastSemicolon
  split
  · exact (Cursor.leads_skipWhile ..).trans (Cursor.leads_next _)
  · exact .refl c

theorem leads_readDirectives (c : Cursor) : c.Leads (readDirectives c).2 := by
  fun_induction readDirectives c with
  | case1 => exact .refl _
  | case2 c w h hd more rest heq ih =>
    rw [heq] at ih
    exact ((Cursor.leads_adjacentWord? h).1.trans (leads_pastStatement _)).trans ih
  | case3 => exact .refl _

theorem leads_bodyStop (step : Word → BlockStep) (c : Cursor) :
    c.Leads (bodyStop (scanBlock step c) c) := by
  have := leads_scanBlock step c
  unfold bodyStop
  split <;> simp_all
  · exact (this.1.trans this.2).trans (leads_pastSemicolon _)
  · exact Cursor.leads_toEnd c

theorem leads_readBody (r : RoutineNode) (c : Cursor) : c.Leads (readBody r c).2 :=
  leads_bodyStop bodyStep c

theorem length_readBody_lt {c : Cursor} {w : Word} (r : RoutineNode) (h : c.nextWord? = some w) :
    (readBody r w.behind).2.after.length < c.after.length :=
  Nat.lt_of_le_of_lt (leads_readBody r w.behind).length_le (Cursor.length_of_nextWord? h)

theorem length_behind_lt {c : Cursor} {w : Word} {d : Declaration} (h : c.nextWord? = some w)
    (hd : Declaration.read? w.first = some d) : d.behind.after.length < c.after.length := by
  obtain ⟨a, rest, hr, -⟩ := Cursor.ident_of_nextWord? h
  have hne : w.first.after ≠ [] := by simp [hr]
  unfold Declaration.read? at hd
  split at hd
  · simp at hd
  · obtain rfl := Option.some.inj hd
    exact Nat.lt_of_le_of_lt (leads_readDirectives _).length_le
      (Nat.lt_of_lt_of_le (length_pastStatement_lt hne) (Cursor.leads_nextWord? h).1.length_le)

/-- The routines that are still open, outermost first, each with what is nested in it behind it. -/
def unfinished (pending : List RoutineNode) : List RoutineNode :=
  pending.reverse.flatMap fun r => { r with unterminated := true, nested := [] } :: r.nested

inductive LocalStep
  | body
  | sectionEnd
  | header
  | other
deriving DecidableEq, Repr

/-- What a word does while routines are in their local declarations. -/
def localStep (w : Word) : LocalStep :=
  match w.lower with
  | "begin" | "asm" => .body
  | "implementation" | "initialization" | "finalization" => .sectionEnd
  | lower => if (routineKind? lower).isSome && isRoutineStart w.first then .header else .other

/-- Reads on at the cursor inside the routine `top`; the routines around it are `parents`, innermost
first, and at most `limit` may be open. -/
def readLocals (limit : Nat) (c : Cursor) (top : RoutineNode) (parents : List RoutineNode) :
    List RoutineNode :=
  match _h : c.nextWord? with
  | none => unfinished (top :: parents)
  | some w =>
    match localStep w with
    | .body =>
      match parents with
      -- This body ends the outermost routine, and with it the walk.
      | [] => [(readBody top w.behind).1]
      | parent :: parents =>
        readLocals limit (readBody top w.behind).2 (parent.push (readBody top w.behind).1) parents
    | .sectionEnd => unfinished (top :: parents)
    | .header =>
      match _hd : Declaration.read? w.first with
      | none => readLocals limit w.behind top parents
      | some d =>
        if d.isForward then readLocals limit d.behind (top.push d.node) parents
        -- The body of a routine that may not be opened is taken for the body of `top`.
        else if limit ≤ parents.length + 1 then
          readLocals limit d.behind { top.push d.node with nestingCapped := true } parents
        else readLocals limit d.behind d.node (top :: parents)
    | .other => readLocals limit w.behind top parents
termination_by c.after.length
decreasing_by
  · exact length_readBody_lt _ _h
  · exact Cursor.length_of_nextWord? _h
  all_goals first
    | exact length_behind_lt _h _hd
    | exact Cursor.length_of_nextWord? _h

/-- The routines that start with the header at the cursor: usually one, but a header without a body
leaves the routines behind it beside it. At most `maxNesting` routines, and at least one, may be
open at once. -/
def readRoutines (maxNesting : Nat) (c : Cursor) : List RoutineNode :=
  match Declaration.read? c with
  | none => []
  | some d =>
    if d.isForward then [d.node] else readLocals (max 1 maxNesting) d.behind d.node []

end MigrationAudit.Pascal
