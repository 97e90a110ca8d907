import MigrationAudit.Text.Cursor

/-!
# Statements

A statement ends at the first semicolon outside parentheses and brackets.
-/

namespace MigrationAudit.Pascal

open Text

/-- The text up to the first semicolon at depth zero, and the rest from the semicolon on. -/
def splitStatement (depth : Nat) : List Char → List Char × List Char
  | [] => ([], [])
  | c :: cs =>
    if c == ';' && depth == 0 then ([], c :: cs)
    else
      let depth :=
        if c == '(' || c == '[' then depth + 1
        else if c == ')' || c == ']' then depth - 1
        else depth
      (c :: (splitStatement depth cs).1, (splitStatement depth cs).2)

theorem splitStatement_append (depth : Nat) (cs : List Char) :
    (splitStatement depth cs).1 ++ (splitStatement depth cs).2 = cs := by
  fun_induction splitStatement depth cs <;> simp_all

/-- The cursor at the semicolon that ends the statement, or at the end of the text. -/
def statementEnd (c : Cursor) : Cursor :=
  c.advance (splitStatement 0 c.after).1 (splitStatement 0 c.after).2

def statementText (c : Cursor) : List Char := (splitStatement 0 c.after).1

def pastStatement (c : Cursor) : Cursor := (statementEnd c).next

theorem leads_statementEnd (c : Cursor) : c.Leads (statementEnd c) :=
  .of_advance (splitStatement_append ..).symm

theorem leads_pastStatement (c : Cursor) : c.Leads (pastStatement c) :=
  (leads_statementEnd c).trans (Cursor.leads_next _)

theorem length_pastStatement_lt {c : Cursor} (h : c.after ≠ []) :
    (pastStatement c).after.length < c.after.length := by
  have hle := (leads_statementEnd c).length_le
  by_cases he : (statementEnd c).after = []
  · simpa [pastStatement, Cursor.next, he] using List.length_pos_iff.2 h
  · exact Nat.lt_of_lt_of_le (Cursor.length_next_lt he) hle

/-- The statements in a text, which is `piece` so far, last character first, and starts at byte
`start`; with the positions where they start. -/
def statementsFrom (start n depth : Nat) (piece : List Char) : List Char → List (Nat × List Char)
  | [] => [(start, piece.reverse)]
  | c :: cs =>
    let n' := n + c.utf8Size
    if c == ';' && depth == 0 then (start, piece.reverse) :: statementsFrom n' n' 0 [] cs
    else
      let depth :=
        if c == '(' || c == '[' then depth + 1
        else if c == ')' || c == ']' then depth - 1
        else depth
      statementsFrom start n' depth (c :: piece) cs

/-- The statements of a text that starts at byte `n`, without white space around them and without
empty ones. -/
def statements (n : Nat) (cs : List Char) : List (Nat × List Char) :=
  ((statementsFrom n n 0 [] cs).map fun (start, piece) =>
    (start + width (piece.takeWhile isBlank), trim piece)).filter fun (_, piece) => !piece.isEmpty

end MigrationAudit.Pascal
