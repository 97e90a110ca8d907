import MigrationAudit.Text.Cursor
import MigrationAudit.Text.Case

/-!
# Words

A word is a maximal run of identifier characters. It is found together with the cursors on its two
sides, so that a scan can ask what stands before it and go on behind it.
-/

namespace MigrationAudit.Text

/-- A word with the cursor at its first character and the cursor behind its last. -/
structure Word where
  first : Cursor
  text : List Char
  behind : Cursor

namespace Word

def start (w : Word) : Nat := w.first.offset

def stop (w : Word) : Nat := w.behind.offset

def lower (w : Word) : String := String.ofList (lowerLatin w.text)

/-- Whether the word is one of `names`, all of them in lower case. -/
def isOneOf (w : Word) (names : List String) : Bool := names.contains w.lower

def startsWithDigit (w : Word) : Bool := w.text.head?.any Char.isDigit

end Word

/-- The leading identifier characters of a text behind its white space, and the rest. -/
def leadingWord? (cs : List Char) : Option (List Char × List Char) :=
  let cs := trimStart cs
  match cs.takeWhile isIdent with
  | [] => none
  | word => some (word, cs.dropWhile isIdent)

namespace Cursor

/-- The identifier characters right at the cursor. -/
def wordHere (c : Cursor) : Word := ⟨c, c.after.takeWhile isIdent, c.skipWhile isIdent⟩

def nextWord? (c : Cursor) : Option Word :=
  let first := c.skipWhile fun a => !isIdent a
  if first.after.isEmpty then none else some first.wordHere

/-- The word that follows the cursor with only white space between. -/
def adjacentWord? (c : Cursor) : Option Word :=
  let word := c.skipBlank.wordHere
  if word.text.isEmpty then none else some word

theorem leads_wordHere (c : Cursor) : c.Leads c.wordHere.behind := leads_skipWhile ..

theorem leads_nextWord? {c : Cursor} {w : Word} (h : c.nextWord? = some w) :
    c.Leads w.first ∧ w.first.Leads w.behind := by
  simp only [nextWord?] at h
  split at h
  · simp at h
  · obtain rfl := Option.some.inj h
    exact ⟨leads_skipWhile .., leads_wordHere _⟩

theorem ident_of_nextWord? {c : Cursor} {w : Word} (h : c.nextWord? = some w) :
    ∃ a rest, w.first.after = a :: rest ∧ isIdent a = true := by
  simp only [nextWord?] at h
  split at h
  · simp at h
  · rename_i hne
    obtain rfl := Option.some.inj h
    simp only [wordHere, skipWhile, after_advance] at hne ⊢
    cases hd : c.after.dropWhile fun a => !isIdent a with
    | nil => simp [hd] at hne
    | cons a rest =>
      have := List.head?_dropWhile_not (fun a => !isIdent a) c.after
      simp only [hd, List.head?_cons, Bool.not_eq_false'] at this
      exact ⟨a, rest, rfl, this⟩

theorem behind_of_nextWord? {c : Cursor} {w : Word} (h : c.nextWord? = some w) :
    w.behind = w.first.skipWhile isIdent := by
  simp only [nextWord?] at h
  split at h
  · simp at h
  · obtain rfl := Option.some.inj h
    rfl

theorem length_of_nextWord? {c : Cursor} {w : Word} (h : c.nextWord? = some w) :
    w.behind.after.length < c.after.length := by
  obtain ⟨a, rest, hr, ha⟩ := ident_of_nextWord? h
  have hle := (leads_nextWord? h).1.length_le
  have hsub := (List.dropWhile_sublist (l := rest) isIdent).length_le
  rw [behind_of_nextWord? h, skipWhile, after_advance, hr, List.dropWhile_cons_of_pos ha]
  rw [hr] at hle
  simp at hle
  omega

theorem leads_adjacentWord? {c : Cursor} {w : Word} (h : c.adjacentWord? = some w) :
    c.Leads w.first ∧ w.first.Leads w.behind := by
  simp only [adjacentWord?] at h
  split at h
  · simp at h
  · obtain rfl := Option.some.inj h
    exact ⟨leads_skipWhile .., leads_wordHere _⟩

theorem after_of_adjacentWord? {c : Cursor} {w : Word} (h : c.adjacentWord? = some w) :
    w.first.after ≠ [] := by
  simp only [adjacentWord?] at h
  split at h
  · simp at h
  · rename_i hne
    obtain rfl := Option.some.inj h
    intro hnil
    simp only [wordHere] at hne hnil
    simp [hnil] at hne

theorem length_of_adjacentWord? {c : Cursor} {w : Word} (h : c.adjacentWord? = some w) :
    w.behind.after.length < c.after.length := by
  simp only [adjacentWord?] at h
  split at h
  · simp at h
  · rename_i hne
    obtain rfl := Option.some.inj h
    have hle := (leads_skipWhile isBlank c).length_le
    simp only [wordHere, skipBlank, List.isEmpty_iff] at hne ⊢
    generalize c.skipWhile isBlank = d at *
    have happ :=
      congrArg List.length (List.takeWhile_append_dropWhile (p := isIdent) (l := d.after))
    have hpos := List.length_pos_iff.2 hne
    simp only [List.length_append, skipWhile, after_advance] at *
    omega

def words (c : Cursor) : List Word :=
  match _h : c.nextWord? with
  | none => []
  | some w => w :: w.behind.words
termination_by c.after.length
decreasing_by exact length_of_nextWord? _h

end Cursor

def words (cs : List Char) : List Word := (Cursor.ofText cs).words

/-- How many words of a text are among `keywords`, in the same case or in any case. There is no upper
limit to the number. -/
def countKeywords (cs : List Char) (keywords : List String) (caseSensitive : Bool) : Nat :=
  (words cs).countP fun w =>
    keywords.any fun k => if caseSensitive then w.text == k.toList else sameLatin w.text k.toList

end MigrationAudit.Text
