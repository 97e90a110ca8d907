import MigrationAudit.Text.Split
import MigrationAudit.Text.Identifier
import MigrationAudit.Text.Span

/-!
# Cursors

A cursor is a place in a text together with what stands on either side of it, so that a scan can
move forward and still look back. Moving never changes the text: `before.reverse ++ after` is kept.
-/

namespace MigrationAudit.Text

/-- A place in a text; the characters before it are listed nearest first. -/
structure Cursor where
  offset : Nat
  before : List Char
  after : List Char
deriving Repr

namespace Cursor

def ofText (cs : List Char) : Cursor := ⟨0, [], cs⟩

def text (c : Cursor) : List Char := c.before.reverse ++ c.after

/-- The cursor behind the characters `moved`, when `rest` follows them. -/
def advance (c : Cursor) (moved rest : List Char) : Cursor :=
  ⟨c.offset + width moved, moved.reverseAux c.before, rest⟩

/-- Moves over the longest run of characters that satisfy `p`. -/
def skipWhile (p : Char → Bool) (c : Cursor) : Cursor :=
  c.advance (c.after.takeWhile p) (c.after.dropWhile p)

def next (c : Cursor) : Cursor :=
  match c.after with
  | [] => c
  | a :: rest => c.advance [a] rest

/-- Moves forward to byte `n`; stays where it is when `n` lies behind. -/
def seek (c : Cursor) (n : Nat) : Cursor :=
  c.advance (takeBytes (n - c.offset) c.after) (dropBytes (n - c.offset) c.after)

/-- Ends the text at byte `limit`. -/
def upTo (c : Cursor) (limit : Nat) : Cursor :=
  { c with after := takeBytes (limit - c.offset) c.after }

def within (cs : List Char) (start limit : Nat) : Cursor := ((ofText cs).seek start).upTo limit

def toEnd (c : Cursor) : Cursor := c.advance c.after []

def lastSignificant? (c : Cursor) : Option Char := c.before.find? fun a => !isBlank a

def skipBlank (c : Cursor) : Cursor := c.skipWhile isBlank

def back : Nat → Cursor → Cursor
  | n + 1, ⟨offset, a :: before, after⟩ => back n ⟨offset - a.utf8Size, before, a :: after⟩
  | _, c => c

/-- The cursors before each of the characters `after`, when `seen` stands before them. -/
def placesFrom (offset : Nat) (seen : List Char) : List Char → List Cursor
  | [] => []
  | a :: rest => ⟨offset, seen, a :: rest⟩ :: placesFrom (offset + a.utf8Size) (a :: seen) rest

def places (cs : List Char) : List Cursor := placesFrom 0 [] cs

def atLineStart (c : Cursor) : Bool := c.before.head?.all (· == '\n')

/-- Whether a run of characters that satisfy `p` starts at the cursor. -/
def atRunStart (p : Char → Bool) (c : Cursor) : Bool :=
  c.after.head?.any p && !c.before.head?.any p

/-- Whether moving forward from `c` leads to `d`. -/
def Leads (c d : Cursor) : Prop := ∃ moved, c.after = moved ++ d.after ∧ d = c.advance moved d.after

@[simp] theorem after_advance (c : Cursor) (moved rest : List Char) :
    (c.advance moved rest).after = rest :=
  rfl

@[simp] theorem offset_advance (c : Cursor) (moved rest : List Char) :
    (c.advance moved rest).offset = c.offset + width moved := rfl

theorem text_advance {c : Cursor} {moved rest : List Char} (h : c.after = moved ++ rest) :
    (c.advance moved rest).text = c.text := by
  simp [text, advance, List.reverseAux_eq, h]

namespace Leads

theorem refl (c : Cursor) : c.Leads c := ⟨[], rfl, rfl⟩

theorem of_advance {c : Cursor} {moved rest : List Char} (h : c.after = moved ++ rest) :
    c.Leads (c.advance moved rest) := ⟨moved, h, rfl⟩

theorem trans {c d e : Cursor} (h : c.Leads d) (k : d.Leads e) : c.Leads e := by
  obtain ⟨m, hm, hd⟩ := h
  obtain ⟨n, hn, he⟩ := k
  refine ⟨m ++ n, by rw [hm, hn, List.append_assoc], ?_⟩
  rw [he, hd]
  simp [advance, List.reverseAux_eq, Nat.add_assoc]

theorem text_eq {c d : Cursor} (h : c.Leads d) : d.text = c.text := by
  obtain ⟨m, hm, hd⟩ := h
  rw [hd]
  exact text_advance hm

theorem offset_le {c d : Cursor} (h : c.Leads d) : c.offset ≤ d.offset := by
  obtain ⟨m, -, hd⟩ := h
  rw [hd]
  exact Nat.le_add_right ..

theorem length_le {c d : Cursor} (h : c.Leads d) : d.after.length ≤ c.after.length := by
  obtain ⟨m, hm, -⟩ := h
  simp [hm]

end Leads

theorem leads_skipWhile (p : Char → Bool) (c : Cursor) : c.Leads (c.skipWhile p) :=
  .of_advance List.takeWhile_append_dropWhile.symm

theorem leads_next (c : Cursor) : c.Leads c.next := by
  unfold next
  split
  · exact .refl c
  · next h => exact .of_advance h

theorem leads_seek (c : Cursor) (n : Nat) : c.Leads (c.seek n) :=
  .of_advance (takeBytes_append_dropBytes ..).symm

theorem leads_toEnd (c : Cursor) : c.Leads c.toEnd := .of_advance (List.append_nil _).symm

theorem length_next_lt {c : Cursor} (h : c.after ≠ []) :
    c.next.after.length < c.after.length := by
  unfold next
  split
  · contradiction
  · next h => simp [h]

end Cursor

/-! ## Matches -/

/-- What a reader found: where it started, what it read, and where it stopped. -/
structure Match (α : Type) where
  first : Cursor
  value : α
  behind : Cursor

/-- The matches that start at or behind byte `n` and do not start inside an earlier one. -/
def disjointFrom {α : Type} (n : Nat) : List (Match α) → List (Match α)
  | [] => []
  | m :: rest =>
    if m.first.offset < n then disjointFrom n rest else m :: disjointFrom m.behind.offset rest

def allMatches {α : Type} (read? : Cursor → Option (α × Cursor)) (cs : List Char) :
    List (Match α) :=
  disjointFrom 0 ((Cursor.places cs).filterMap fun c =>
    (read? c).map fun (value, behind) => ⟨c, value, behind⟩)

end MigrationAudit.Text
