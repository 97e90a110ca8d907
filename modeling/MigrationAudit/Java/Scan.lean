import MigrationAudit.Text.Bracket
import MigrationAudit.Text.Split
import MigrationAudit.Text.Word

/-!
# Scanning declarations

The next mark outside brackets, the block at a bracket, and the name at the end of a declarator.
-/

namespace MigrationAudit.Java

open Text

def isNamePart (c : Char) : Bool := isIdent c || c == '$'

/-- The depth behind a character, over parentheses, brackets and braces. -/
def depthBehind (depth : Nat) (c : Char) : Nat :=
  if c == '(' || c == '[' || c == '\x7b' then depth + 1
  else if c == ')' || c == ']' || c == '\x7d' then depth - 1
  else depth

/-- The text before the first character at depth zero that satisfies `p`, and the rest from it on;
all of the text when there is none. -/
def splitTop (p : Char → Bool) (depth : Nat) : List Char → List Char × List Char
  | [] => ([], [])
  | c :: cs =>
    if depth == 0 && p c then ([], c :: cs)
    else
      (c :: (splitTop p (depthBehind depth c) cs).1, (splitTop p (depthBehind depth c) cs).2)

theorem splitTop_append (p : Char → Bool) (depth : Nat) (cs : List Char) :
    (splitTop p depth cs).1 ++ (splitTop p depth cs).2 = cs := by
  fun_induction splitTop p depth cs <;> simp_all

/-- The cursor at the first character at depth zero that satisfies `p`, or at the end. -/
def seekTop (p : Char → Bool) (c : Cursor) : Cursor :=
  c.advance (splitTop p 0 c.after).1 (splitTop p 0 c.after).2

/-- The cursor behind the first character at depth zero that satisfies `p`, or at the end. -/
def pastTop (p : Char → Bool) (c : Cursor) : Cursor := (seekTop p c).next

theorem leads_seekTop (p : Char → Bool) (c : Cursor) : c.Leads (seekTop p c) :=
  .of_advance (splitTop_append ..).symm

theorem leads_pastTop (p : Char → Bool) (c : Cursor) : c.Leads (pastTop p c) :=
  (leads_seekTop p c).trans (Cursor.leads_next _)

theorem length_pastTop_lt {p : Char → Bool} {c : Cursor} (h : c.after ≠ []) :
    (pastTop p c).after.length < c.after.length := by
  by_cases he : (seekTop p c).after = []
  · simpa [pastTop, Cursor.next, he] using List.length_pos_iff.2 h
  · exact Nat.lt_of_lt_of_le (Cursor.length_next_lt he) (leads_seekTop p c).length_le

/-- A delimited part of a text: its inside, the cursor behind it, and whether it is closed. A part
that is not closed reaches to the end. -/
structure Delimited where
  inside : Cursor
  behind : Cursor
  closed : Bool

def delimited (opening close : Char) (c : Cursor) : Delimited :=
  match splitAtClose? opening close c.after with
  | some (inside, rest) =>
    ⟨{ c.next with after := inside.drop 1 }, c.advance (inside ++ [close]) rest, true⟩
  | none => ⟨c.next, c.toEnd, false⟩

theorem leads_delimited (opening close : Char) (c : Cursor) :
    c.Leads (delimited opening close c).behind := by
  unfold delimited
  split
  · next inside rest h => exact .of_advance (by simp [append_of_splitAtClose? h])
  · exact Cursor.leads_toEnd c

theorem length_delimited_lt (opening close : Char) {c : Cursor} (h : c.after ≠ []) :
    (delimited opening close c).behind.after.length < c.after.length ∧
      (delimited opening close c).inside.after.length < c.after.length := by
  unfold delimited
  split
  · next inside rest hs =>
    have := congrArg List.length (append_of_splitAtClose? hs)
    simp at this ⊢
    omega
  · exact ⟨by simpa [Cursor.toEnd] using List.length_pos_iff.2 h, Cursor.length_next_lt h⟩

def block (c : Cursor) : Delimited := delimited '\x7b' '\x7d' c

/-- The name at the end of a declarator, behind which brackets may stand, and the text in front of
it. A word that starts with a digit is no name. -/
def trailingName? (cs : List Char) : Option (List Char × List Char) :=
  let rest := (cs.reverse.dropWhile isBlank).dropWhile fun c => c == '[' || c == ']' || c == ' '
  match (rest.takeWhile isNamePart).reverse with
  | [] => none
  | name =>
    if name.head?.any Char.isDigit then none
    else some ((rest.dropWhile isNamePart).reverse, name)

end MigrationAudit.Java
