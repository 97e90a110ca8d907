import MigrationAudit.Text.Word

/-!
# Blocks

A block is closed by counting: some words open a block inside it, some close the innermost one, and
some cannot stand inside it at all. Each word is looked at once. There is no upper limit to depths.
-/

namespace MigrationAudit.Text

inductive BlockStep
  | opens
  | closes
  | aborts
  | skips
deriving DecidableEq, Repr

/-- How a block ends: behind the word that closes it, before a word that cannot stand in it, or not
at all. -/
inductive BlockEnd
  | closed (w : Word)
  | aborted (w : Word)
  | unterminated

/-- The end of a block and its greatest depth; the block itself has depth 1. -/
structure BlockScan where
  ending : BlockEnd
  maxDepth : Nat

namespace BlockScan

/-- Where the block stops; at `limit` when it does not end. -/
def stop (b : BlockScan) (limit : Nat) : Nat :=
  match b.ending with
  | .closed w => w.stop
  | .aborted w => w.start
  | .unterminated => limit

def isClosed (b : BlockScan) : Bool :=
  match b.ending with
  | .closed _ => true
  | _ => false

end BlockScan

/-- Scans behind the cursor, where `depth` blocks are open and `deepest` is the greatest depth so
far. -/
def scanBlockAt (step : Word → BlockStep) (depth deepest : Nat) (c : Cursor) : BlockScan :=
  match _h : c.nextWord? with
  | none => ⟨.unterminated, deepest⟩
  | some w =>
    match step w with
    | .opens => scanBlockAt step (depth + 1) (max deepest (depth + 1)) w.behind
    | .closes =>
      -- The block itself is the last one open.
      if depth ≤ 1 then ⟨.closed w, deepest⟩ else scanBlockAt step (depth - 1) deepest w.behind
    | .aborts => ⟨.aborted w, deepest⟩
    | .skips => scanBlockAt step depth deepest w.behind
termination_by c.after.length
decreasing_by all_goals exact Cursor.length_of_nextWord? _h

def scanBlock (step : Word → BlockStep) (c : Cursor) : BlockScan := scanBlockAt step 1 1 c

namespace BlockScan

def stopCursor (b : BlockScan) (c : Cursor) : Cursor :=
  match b.ending with
  | .closed w => w.behind
  | .aborted w => w.first
  | .unterminated => c.toEnd

end BlockScan

theorem leads_scanBlockAt (step : Word → BlockStep) (depth deepest : Nat) (c : Cursor) :
    match (scanBlockAt step depth deepest c).ending with
    | .closed w => c.Leads w.first ∧ w.first.Leads w.behind
    | .aborted w => c.Leads w.first ∧ w.first.Leads w.behind
    | .unterminated => True := by
  fun_induction scanBlockAt step depth deepest c with
  | case1 => trivial
  | case2 _ _ _ w h _ ih | case4 _ _ _ w h _ _ ih | case6 _ _ _ w h _ ih =>
    obtain ⟨h₁, h₂⟩ := Cursor.leads_nextWord? h
    revert ih
    split
    · exact fun ih => ⟨(h₁.trans h₂).trans ih.1, ih.2⟩
    · exact fun ih => ⟨(h₁.trans h₂).trans ih.1, ih.2⟩
    · exact id
  | case3 _ _ _ w h | case5 _ _ _ w h => exact Cursor.leads_nextWord? h

theorem leads_scanBlock (step : Word → BlockStep) (c : Cursor) :
    match (scanBlock step c).ending with
    | .closed w => c.Leads w.first ∧ w.first.Leads w.behind
    | .aborted w => c.Leads w.first ∧ w.first.Leads w.behind
    | .unterminated => True := leads_scanBlockAt step 1 1 c

theorem leads_stopCursor (step : Word → BlockStep) (c : Cursor) :
    c.Leads ((scanBlock step c).stopCursor c) := by
  have := leads_scanBlock step c
  unfold BlockScan.stopCursor
  split <;> simp_all
  · exact this.1.trans this.2
  · exact Cursor.leads_toEnd c

end MigrationAudit.Text
