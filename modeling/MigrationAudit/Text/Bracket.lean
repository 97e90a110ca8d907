import Std.Data.HashMap
import MigrationAudit.Text.Split
import MigrationAudit.Text.Span

/-!
# Brackets

Texts cut at separators outside all brackets, and delimiters paired with the ones that close them,
by search from one delimiter or for all delimiters in one pass.
-/

namespace MigrationAudit.Text

def isOpening (c : Char) : Bool := c == '(' || c == '[' || c == '\x7b' || c == '<'

def isClosing (c : Char) : Bool := c == ')' || c == ']' || c == '\x7d' || c == '>'

/-- The pieces between the separators at depth zero, where `piece` is the piece so far, last
character first. A bracket too many closes nothing. -/
def topLevelPieces (sep : Char) (depth : Nat) (piece : List Char) : List Char → List (List Char)
  | [] => [piece.reverse]
  | c :: cs =>
    if isOpening c then topLevelPieces sep (depth + 1) (c :: piece) cs
    else if isClosing c then topLevelPieces sep (depth - 1) (c :: piece) cs
    else if c == sep && depth == 0 then piece.reverse :: topLevelPieces sep 0 [] cs
    else topLevelPieces sep depth (c :: piece) cs

/-- The text cut at each `sep` outside brackets, without white space around the pieces and without
empty pieces. -/
def splitTopLevel (sep : Char) (cs : List Char) : List (List Char) :=
  ((topLevelPieces sep 0 [] cs).map trim).filter (!·.isEmpty)

/-- The text up to the `close` that brings the depth back to zero, and the text behind it, when
`depth` delimiters are open and `seen` holds the text before, last character first. -/
def closeFrom (opening close : Char) (depth : Nat) (seen : List Char) :
    List Char → Option (List Char × List Char)
  | [] => none
  | c :: cs =>
    if c == opening then closeFrom opening close (depth + 1) (c :: seen) cs
    else if c == close then
      if depth ≤ 1 then some (seen.reverse, cs)
      else closeFrom opening close (depth - 1) (c :: seen) cs
    else closeFrom opening close depth (c :: seen) cs

/-- The text up to the delimiter that closes the one at its start, and the text behind that. -/
def splitAtClose? (opening close : Char) (cs : List Char) : Option (List Char × List Char) :=
  closeFrom opening close 0 [] cs

theorem append_of_closeFrom {opening close : Char} {depth : Nat} {seen cs inside rest : List Char}
    (h : closeFrom opening close depth seen cs = some (inside, rest)) :
    inside ++ close :: rest = seen.reverse ++ cs := by
  fun_induction closeFrom opening close depth seen cs <;> simp_all

theorem append_of_splitAtClose? {opening close : Char} {cs inside rest : List Char}
    (h : splitAtClose? opening close cs = some (inside, rest)) : inside ++ close :: rest = cs := by
  simpa using append_of_closeFrom h

def closingAt? (opening close : Char) (cs : List Char) (n : Nat) : Option Nat :=
  (splitAtClose? opening close (dropBytes n cs)).map fun (inside, _) => n + width inside

/-- Every opening delimiter of a text with the one that closes it, by position. -/
structure Pairing where
  closings : Std.HashMap Nat Nat

namespace Pairing

/-- Pairs the delimiters behind byte `n`; the delimiters in `pending` are open, innermost first. -/
def pair (opening close : Char) (n : Nat) (pending : List Nat) (found : Std.HashMap Nat Nat) :
    List Char → Std.HashMap Nat Nat
  | [] => found
  | c :: cs =>
    let n' := n + c.utf8Size
    if c == opening then pair opening close n' (n :: pending) found cs
    else if c == close then
      match pending with
      | start :: pending => pair opening close n' pending (found.insert start n) cs
      -- A closing delimiter too many closes nothing.
      | [] => pair opening close n' [] found cs
    else pair opening close n' pending found cs

def of (opening close : Char) (cs : List Char) : Pairing := ⟨pair opening close 0 [] ∅ cs⟩

def closingAt? (p : Pairing) (n : Nat) : Option Nat := p.closings[n]?

end Pairing

end MigrationAudit.Text
