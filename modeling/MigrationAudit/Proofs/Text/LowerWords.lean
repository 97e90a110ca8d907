import MigrationAudit.Proofs.Text.LowerCase

/-!
# Words in lower case

Cursors, words, blocks and matches of a text in lower case are those of the text, put into lower
case. Offsets stay, since a capital is as wide as its small letter.
-/

namespace MigrationAudit.Text

/-! ## Cursors -/

namespace Cursor

def lowerCase (c : Cursor) : Cursor := ⟨c.offset, lowerLatin c.before, lowerLatin c.after⟩

variable {p : Char → Bool} (c : Cursor)

@[simp] theorem offset_lowerCase : c.lowerCase.offset = c.offset := rfl

@[simp] theorem before_lowerCase : c.lowerCase.before = lowerLatin c.before := rfl

@[simp] theorem after_lowerCase : c.lowerCase.after = lowerLatin c.after := rfl

@[simp] theorem advance_lowerCase (moved rest : List Char) :
    c.lowerCase.advance (lowerLatin moved) (lowerLatin rest) = (c.advance moved rest).lowerCase := by
  simp [advance, lowerCase, width_lowerLatin, List.reverseAux_eq]

theorem skipWhile_lowerCase (hp : IgnoresCase p) :
    c.lowerCase.skipWhile p = (c.skipWhile p).lowerCase := by
  rw [skipWhile, after_lowerCase, takeWhile_lowerLatin hp, dropWhile_lowerLatin hp, advance_lowerCase,
    skipWhile]

@[simp] theorem skipBlank_lowerCase : c.lowerCase.skipBlank = c.skipBlank.lowerCase :=
  skipWhile_lowerCase c ignoresCase_isBlank

@[simp] theorem next_lowerCase : c.lowerCase.next = c.next.lowerCase := by
  obtain ⟨offset, before, after⟩ := c
  cases after with
  | nil => rfl
  | cons a rest => exact advance_lowerCase ⟨offset, before, a :: rest⟩ [a] rest

@[simp] theorem seek_lowerCase (n : Nat) : c.lowerCase.seek n = (c.seek n).lowerCase := by
  simp [seek]

@[simp] theorem toEnd_lowerCase : c.lowerCase.toEnd = c.toEnd.lowerCase :=
  advance_lowerCase c c.after []

@[simp] theorem ofText_lowerLatin (cs : List Char) :
    ofText (lowerLatin cs) = (ofText cs).lowerCase :=
  rfl

@[simp] theorem within_lowerLatin (cs : List Char) (start limit : Nat) :
    within (lowerLatin cs) start limit = (within cs start limit).lowerCase := by
  rw [within, ofText_lowerLatin, seek_lowerCase, within]
  simp [upTo, lowerCase]

@[simp] theorem lastSignificant?_lowerCase :
    c.lowerCase.lastSignificant? = c.lastSignificant?.map Char.toLower :=
  find?_lowerLatin ignoresCase_isBlank.not c.before

@[simp] theorem back_lowerCase (n : Nat) : back n c.lowerCase = (back n c).lowerCase := by
  induction n generalizing c with
  | zero => rfl
  | succ n ih =>
    obtain ⟨offset, before, after⟩ := c
    cases before with
    | nil => rfl
    | cons a before =>
      have := ih ⟨offset - a.utf8Size, before, a :: after⟩
      simpa [lowerCase, back, utf8Size_toLower] using this

theorem placesFrom_lowerLatin (offset : Nat) (seen cs : List Char) :
    placesFrom offset (lowerLatin seen) (lowerLatin cs) =
      (placesFrom offset seen cs).map lowerCase := by
  induction cs generalizing offset seen with
  | nil => rfl
  | cons a cs ih =>
    simp only [lowerLatin_cons, placesFrom, utf8Size_toLower, List.map_cons, ← ih]
    rfl

@[simp] theorem places_lowerLatin (cs : List Char) :
    places (lowerLatin cs) = (places cs).map lowerCase := placesFrom_lowerLatin 0 [] cs

theorem atRunStart_lowerCase (hp : IgnoresCase p) : c.lowerCase.atRunStart p = c.atRunStart p := by
  simp only [atRunStart, after_lowerCase, before_lowerCase, any_head?_lowerLatin hp]

@[simp] theorem atLineStart_lowerCase : c.lowerCase.atLineStart = c.atLineStart := by
  obtain ⟨offset, before, after⟩ := c
  cases before with
  | nil => rfl
  | cons a before =>
    exact beq_toLower (p := '\n') rfl

end Cursor

/-! ## Words -/

namespace Word

def lowerCase (w : Word) : Word := ⟨w.first.lowerCase, lowerLatin w.text, w.behind.lowerCase⟩

variable (w : Word)

@[simp] theorem first_lowerCase : w.lowerCase.first = w.first.lowerCase := rfl

@[simp] theorem text_lowerCase : w.lowerCase.text = lowerLatin w.text := rfl

@[simp] theorem behind_lowerCase : w.lowerCase.behind = w.behind.lowerCase := rfl

@[simp] theorem start_lowerCase : w.lowerCase.start = w.start := rfl

@[simp] theorem stop_lowerCase : w.lowerCase.stop = w.stop := rfl

@[simp] theorem lower_lowerCase : w.lowerCase.lower = w.lower := by
  simp [lower]

@[simp] theorem isOneOf_lowerCase (names : List String) :
    w.lowerCase.isOneOf names = w.isOneOf names := by
  simp [isOneOf]

@[simp] theorem startsWithDigit_lowerCase : w.lowerCase.startsWithDigit = w.startsWithDigit :=
  any_head?_lowerLatin ignoresCase_isDigit w.text

end Word

@[simp] theorem leadingWord?_lowerLatin (cs : List Char) :
    leadingWord? (lowerLatin cs) = (leadingWord? cs).map (Prod.map lowerLatin lowerLatin) := by
  simp only [leadingWord?, trimStart_lowerLatin, takeWhile_lowerLatin ignoresCase_isIdent,
    dropWhile_lowerLatin ignoresCase_isIdent]
  cases (trimStart cs).takeWhile isIdent <;> simp

namespace Cursor

variable (c : Cursor)

@[simp] theorem wordHere_lowerCase : c.lowerCase.wordHere = c.wordHere.lowerCase := by
  rw [wordHere, after_lowerCase, takeWhile_lowerLatin ignoresCase_isIdent,
    skipWhile_lowerCase c ignoresCase_isIdent]
  rfl

@[simp] theorem nextWord?_lowerCase : c.lowerCase.nextWord? = c.nextWord?.map Word.lowerCase := by
  simp only [nextWord?, skipWhile_lowerCase c ignoresCase_isIdent.not, after_lowerCase,
    isEmpty_lowerLatin, wordHere_lowerCase]
  split <;> rfl

theorem nextWord?_lowerCase_of_none {c : Cursor} (h : c.nextWord? = none) :
    c.lowerCase.nextWord? = none := by
  rw [nextWord?_lowerCase, h, Option.map_none]

theorem nextWord?_lowerCase_of_some {c : Cursor} {w : Word} (h : c.nextWord? = some w) :
    c.lowerCase.nextWord? = some w.lowerCase := by
  rw [nextWord?_lowerCase, h, Option.map_some]

@[simp] theorem adjacentWord?_lowerCase :
    c.lowerCase.adjacentWord? = c.adjacentWord?.map Word.lowerCase := by
  simp only [adjacentWord?, skipBlank_lowerCase, wordHere_lowerCase, Word.text_lowerCase,
    isEmpty_lowerLatin]
  split <;> rfl

@[simp] theorem words_lowerCase : c.lowerCase.words = c.words.map Word.lowerCase := by
  fun_induction words c with
  | case1 c h =>
    rw [words_of_nextWord?_eq_none (nextWord?_lowerCase_of_none h)]
    rfl
  | case2 c w h ih =>
    rw [words_of_nextWord? (nextWord?_lowerCase_of_some h), Word.behind_lowerCase, ih]
    rfl

end Cursor

@[simp] theorem words_lowerLatin (cs : List Char) :
    words (lowerLatin cs) = (words cs).map Word.lowerCase :=
  Cursor.words_lowerCase (.ofText cs)

@[simp] theorem countKeywords_lowerLatin (cs : List Char) (keywords : List String) :
    countKeywords (lowerLatin cs) keywords false = countKeywords cs keywords false := by
  rw [countKeywords, words_lowerLatin, List.countP_map, countKeywords]
  congr 1
  funext w
  simp

/-! ## Blocks -/

def BlockEnd.lowerCase : BlockEnd → BlockEnd
  | .closed w => .closed w.lowerCase
  | .aborted w => .aborted w.lowerCase
  | .unterminated => .unterminated

namespace BlockScan

def lowerCase (b : BlockScan) : BlockScan := ⟨b.ending.lowerCase, b.maxDepth⟩

@[simp] theorem isClosed_lowerCase (b : BlockScan) : b.lowerCase.isClosed = b.isClosed := by
  obtain ⟨ending, maxDepth⟩ := b
  cases ending <;> rfl

@[simp] theorem stopCursor_lowerCase (b : BlockScan) (c : Cursor) :
    b.lowerCase.stopCursor c.lowerCase = (b.stopCursor c).lowerCase := by
  obtain ⟨ending, maxDepth⟩ := b
  cases ending with
  | unterminated => exact Cursor.toEnd_lowerCase c
  | _ => rfl

end BlockScan

section Blocks

variable {step : Word → BlockStep} (hstep : ∀ w, step w.lowerCase = step w)

include hstep

theorem scanWords_lowerCase (depth deepest : Nat) (ws : List Word) :
    scanWords step depth deepest (ws.map Word.lowerCase) =
      (scanWords step depth deepest ws).lowerCase := by
  induction ws generalizing depth deepest with
  | nil => rfl
  | cons w ws ih =>
    simp only [List.map_cons, scanWords, hstep w, ih]
    split
    · rfl
    · split <;> rfl
    · rfl
    · rfl

theorem scanBlock_lowerCase (c : Cursor) :
    scanBlock step c.lowerCase = (scanBlock step c).lowerCase := by
  rw [scanBlock, scanBlockAt_eq_scanWords, Cursor.words_lowerCase, scanWords_lowerCase hstep,
    scanBlock, scanBlockAt_eq_scanWords]

end Blocks

/-! ## Matches -/

section Matches

variable {α : Type} (f : α → α)

/-- The match in the text in lower case, when `f` puts into lower case what is read. -/
def Match.lowerCase (m : Match α) : Match α := ⟨m.first.lowerCase, f m.value, m.behind.lowerCase⟩

theorem disjointFrom_lowerCase (n : Nat) (ms : List (Match α)) :
    disjointFrom n (ms.map (Match.lowerCase f)) = (disjointFrom n ms).map (Match.lowerCase f) := by
  induction ms generalizing n with
  | nil => rfl
  | cons m ms ih =>
    have hfirst : (m.lowerCase f).first.offset = m.first.offset := rfl
    have hbehind : (m.lowerCase f).behind.offset = m.behind.offset := rfl
    simp only [List.map_cons, disjointFrom, hfirst, hbehind, ih]
    split <;> rfl

variable {f} {read? : Cursor → Option (α × Cursor)}

theorem allMatches_lowerLatin
    (hread : ∀ c, read? c.lowerCase = (read? c).map (Prod.map f Cursor.lowerCase))
    (cs : List Char) :
    allMatches read? (lowerLatin cs) = (allMatches read? cs).map (Match.lowerCase f) := by
  rw [allMatches, Cursor.places_lowerLatin, List.filterMap_map, allMatches, ← disjointFrom_lowerCase,
    List.map_filterMap]
  congr 2
  funext c
  simp only [Function.comp_apply, hread]
  cases read? c <;> rfl

end Matches

end MigrationAudit.Text
