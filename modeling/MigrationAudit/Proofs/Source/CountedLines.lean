import MigrationAudit.Proofs.Source.Lines

/-!
# Lines that hold code

The lines of a text stand between its line ends. A line is counted as code when a character of code
that is no white space, or any character of a literal, stands on it; otherwise as comment when a
character of a comment does. A line end stands on no line, also where it belongs to a literal or to a
comment.
-/

namespace MigrationAudit.Source

open Text

/-! ## Lines of a text -/

/-- The lines between the line ends. One at the very end opens no further line. -/
def splitLines {α : Type} (isEnd : α → Bool) : List α → List (List α)
  | [] => []
  | a :: rest =>
    if isEnd a then [] :: splitLines isEnd rest
    else
      match splitLines isEnd rest with
      | [] => [[a]]
      | line :: lines => (a :: line) :: lines

/-- The characters of a text, each with the segment in which it stands. -/
def placedChars (parts : List Segment) : List (Segment × Char) :=
  parts.flatMap fun part => part.source.map (part, ·)

def placedLines (s : Syntax) (t : List Char) : List (List (Segment × Char)) :=
  splitLines (·.2 == '\n') (placedChars (segments s t))

/-- The character makes its line a line of code. -/
def showsCode : Segment × Char → Bool
  | (.code _, c) => !isBlank c
  | (.comment _, _) => false
  | (.literal .., _) => true

/-- The character makes its line, unless it holds code, a line of comment. -/
def showsComment : Segment × Char → Bool
  | (.comment _, _) => true
  | _ => false

def shown (line : List (Segment × Char)) : Bool × Bool :=
  (line.any showsCode, line.any showsComment)

theorem map_splitLines {α β : Type} (isEnd : β → Bool) (f : α → β) (xs : List α) :
    splitLines isEnd (xs.map f) = (splitLines (isEnd ∘ f) xs).map (·.map f) := by
  induction xs with
  | nil => rfl
  | cons a xs ih =>
    rw [List.map_cons, splitLines, splitLines, ih, Function.comp_apply]
    split
    · rfl
    · cases splitLines (isEnd ∘ f) xs <;> rfl

theorem map_snd_placedChars (parts : List Segment) :
    (placedChars parts).map (·.2) = parts.flatMap Segment.source := by
  simp [placedChars, List.map_flatMap, Function.comp_def]

theorem map_snd_placedLines (s : Syntax) (t : List Char) :
    (placedLines s t).map (·.map (·.2)) = splitLines (· == '\n') t := by
  have htext : t = (placedChars (segments s t)).map (·.2) := by
    rw [map_snd_placedChars, source_segments]
  conv_rhs => rw [htext, map_splitLines]
  rfl

/-! ## Marks -/

def markOf (p : Segment × Char) : Mark :=
  if showsCode p then .code else if showsComment p then .comment else .nothing

theorem marks_eq (part : Segment) :
    part.marks = part.source.map fun c => (c, markOf (part, c)) := by
  cases part with
  | code c => cases h : isBlank c <;> simp [Segment.marks, markOf, showsCode, showsComment, h]
  | comment text => rfl
  | literal quote pieces closed => rfl

theorem flatMap_marks_eq (parts : List Segment) :
    parts.flatMap Segment.marks = (placedChars parts).map fun p => (p.2, markOf p) := by
  simp only [placedChars, List.map_flatMap, List.map_map]
  exact List.flatMap_congr fun part _ => marks_eq part

theorem note_markOf (l : Line) (p : Segment × Char) :
    (l.note (markOf p)).hasCode = (l.hasCode || showsCode p) ∧
      (l.note (markOf p)).hasComment = (l.hasComment || showsComment p) := by
  obtain ⟨part, c⟩ := p
  cases part with
  | code d => cases h : isBlank c <;> simp [markOf, Line.note, showsCode, showsComment, h]
  | comment text => simp [markOf, Line.note, showsCode, showsComment]
  | literal quote pieces closed => simp [markOf, Line.note, showsCode, showsComment]

/-- What the lines hold, when the first one has been going on. -/
def goingOn (current : Line) (lines : List (List (Segment × Char))) : List (Bool × Bool) :=
  (lines.map shown).modifyHead fun (code, comment) =>
    (current.hasCode || code, current.hasComment || comment)

theorem goingOn_startingAt (n : Nat) (lines : List (List (Segment × Char))) :
    goingOn (.startingAt n) lines = lines.map shown := by
  cases lines <;> simp [goingOn, Line.startingAt]

theorem goingOn_lineEnd (current : Line) (lines : List (List (Segment × Char))) :
    goingOn current ([] :: lines) =
      (current.hasCode, current.hasComment) :: lines.map shown := by
  simp [goingOn, shown]

theorem goingOn_cons (current : Line) (p : Segment × Char) (line : List (Segment × Char))
    (lines : List (List (Segment × Char))) :
    goingOn current ((p :: line) :: lines) = goingOn (current.note (markOf p)) (line :: lines) := by
  obtain ⟨hcode, hcomment⟩ := note_markOf current p
  simp [goingOn, shown, hcode, hcomment, Bool.or_assoc]

/-- The lines of a text that are counted, when the first one has been going on at byte `n`. -/
def countedFrom (n : Nat) (current : Line) (xs : List (Segment × Char)) : List Line :=
  let lines := linesFrom n current (xs.map fun p => (p.2, markOf p))
  if xs.getLast?.all (·.2 == '\n') then lines.dropLast else lines

theorem splitLines_ne_nil {α : Type} {isEnd : α → Bool} {xs : List α} (h : xs ≠ []) :
    splitLines isEnd xs ≠ [] := by
  cases xs with
  | nil => contradiction
  | cons a xs =>
    rw [splitLines]
    split
    · exact List.cons_ne_nil _ _
    · split <;> exact List.cons_ne_nil _ _

theorem linesFrom_ne_nil (n : Nat) (current : Line) (marks : List (Char × Mark)) :
    linesFrom n current marks ≠ [] := by
  rw [← List.length_pos_iff, length_linesFrom]
  exact Nat.succ_pos _

theorem countedFrom_lineEnd (n : Nat) (current : Line) (part : Segment)
    {xs : List (Segment × Char)} (hne : xs ≠ []) :
    countedFrom n current ((part, '\n') :: xs) =
      current :: countedFrom (n + 1) (.startingAt (n + 1)) xs := by
  have hlast : ((part, '\n') :: xs).getLast? = xs.getLast? := by
    rw [← List.singleton_append, List.getLast?_append_of_ne_nil _ hne]
  have hlines := linesFrom_ne_nil (n + 1) (.startingAt (n + 1))
    (xs.map fun p => (p.2, markOf p))
  have hfirst : linesFrom n current (((part, '\n') :: xs).map fun p => (p.2, markOf p)) =
      current :: linesFrom (n + 1) (.startingAt (n + 1)) (xs.map fun p => (p.2, markOf p)) := rfl
  simp only [countedFrom, hlast, hfirst, List.dropLast_cons_of_ne_nil hlines]
  split <;> rfl

theorem countedFrom_cons (n : Nat) (current : Line) {p : Segment × Char} (hp : p.2 ≠ '\n')
    {xs : List (Segment × Char)} (hne : xs ≠ []) :
    countedFrom n current (p :: xs) =
      countedFrom (n + p.2.utf8Size) (current.note (markOf p)) xs := by
  have hlast : (p :: xs).getLast? = xs.getLast? := by
    rw [← List.singleton_append, List.getLast?_append_of_ne_nil _ hne]
  simp only [countedFrom, hlast, List.map_cons, linesFrom, beq_eq_false_iff_ne.mpr hp,
    Bool.false_eq_true, if_false]

/-- The lines that are counted of a text, which is not empty, hold what stands on them. -/
theorem map_countedFrom (n : Nat) (current : Line) {xs : List (Segment × Char)} (hne : xs ≠ []) :
    (countedFrom n current xs).map (fun l => (l.hasCode, l.hasComment)) =
      goingOn current (splitLines (·.2 == '\n') xs) := by
  induction xs generalizing n current with
  | nil => contradiction
  | cons p xs ih =>
    obtain ⟨part, c⟩ := p
    by_cases hc : c = '\n'
    · subst hc
      have hsplit : splitLines (·.2 == '\n') ((part, '\n') :: xs) =
          [] :: splitLines (·.2 == '\n') xs := rfl
      rw [hsplit, goingOn_lineEnd]
      by_cases hxs : xs = []
      · subst hxs
        rfl
      · rw [countedFrom_lineEnd n current part hxs, List.map_cons, ih _ _ hxs, goingOn_startingAt]
    · have hend : (c == '\n') = false := beq_eq_false_iff_ne.mpr hc
      by_cases hxs : xs = []
      · subst hxs
        have hnil : goingOn current [[(part, c)]] =
            goingOn (current.note (markOf (part, c))) [[]] := goingOn_cons ..
        simp [countedFrom, linesFrom, splitLines, hend, hnil, goingOn_lineEnd]
      · have hne : splitLines (·.2 == '\n') xs ≠ [] := splitLines_ne_nil hxs
        obtain ⟨line, lines, hlines⟩ := List.exists_cons_of_ne_nil hne
        have hsplit : splitLines (·.2 == '\n') ((part, c) :: xs) =
            ((part, c) :: line) :: lines := by
          simp [splitLines, hend, hlines]
        rw [countedFrom_cons n current hc hxs, ih _ _ hxs, hsplit, goingOn_cons, hlines]

/-! ## Counted lines -/

theorem Masks.eq_nil_iff {m t : List Char} (h : Masks m t) : m = [] ↔ t = [] := by
  constructor
  · rintro rfl
    by_contra hne
    exact absurd h.width_eq (Nat.ne_of_lt (width_pos hne))
  · rintro rfl
    by_contra hne
    exact absurd h.width_eq (Nat.ne_of_gt (width_pos hne))

/-- Hiding keeps a line end at the end of a text, and puts none there. -/
theorem Masks.getLast?_eq {m t : List Char} (h : Masks m t) :
    m.getLast?.all (· == '\n') = t.getLast?.all (· == '\n') := by
  induction h with
  | nil => rfl
  | @keep c m t h ih =>
    by_cases hm : m = []
    · rw [hm, h.eq_nil_iff.mp hm]
    · have ht : t ≠ [] := mt h.eq_nil_iff.mpr hm
      rw [← List.singleton_append, ← List.singleton_append (l := t),
        List.getLast?_append_of_ne_nil _ hm, List.getLast?_append_of_ne_nil _ ht, ih]
  | @hide c hc m t h ih =>
    by_cases hm : m = []
    · obtain ⟨k, hk⟩ := Nat.exists_eq_succ_of_ne_zero (Nat.pos_iff_ne_zero.mp c.utf8Size_pos)
      rw [hm, h.eq_nil_iff.mp hm, List.append_nil, hk, List.replicate_succ', List.getLast?_concat]
      simp [hc]
    · have ht : t ≠ [] := mt h.eq_nil_iff.mpr hm
      rw [List.getLast?_append_of_ne_nil _ hm, ← List.singleton_append (l := t),
        List.getLast?_append_of_ne_nil _ ht, ih]

namespace Masked

/-- The lines that are counted hold what stands on the lines of the text. -/
theorem map_countedLines (s : Syntax) (t : List Char) :
    (of s t).countedLines.map (fun l => (l.hasCode, l.hasComment)) =
      (placedLines s t).map shown := by
  have hmask : (of s t).code.getLast?.all (· == '\n') = t.getLast?.all (· == '\n') :=
    (masks_segments s t).getLast?_eq
  have htext : (placedChars (segments s t)).map (·.2) = t := by
    rw [map_snd_placedChars, source_segments]
  have hlast : t.getLast?.all (· == '\n') =
      (placedChars (segments s t)).getLast?.all (·.2 == '\n') := by
    conv_lhs => rw [← htext, List.getLast?_map]
    cases (placedChars (segments s t)).getLast? <;> rfl
  have hlines : (of s t).lines =
      linesFrom 0 (.startingAt 0) ((placedChars (segments s t)).map fun p => (p.2, markOf p)) := by
    rw [← flatMap_marks_eq]
    rfl
  rw [countedLines, hmask, hlast, hlines, placedLines]
  by_cases hne : placedChars (segments s t) = []
  · rw [hne]
    rfl
  · have hcounted := map_countedFrom 0 (.startingAt 0) hne
    rwa [goingOn_startingAt] at hcounted

/-- The lines of a text are numbered by the line ends in front of them, and counted by what stands
on them. -/
structure Tallies (m : Masked) (t : List Char) (lines : List (List (Segment × Char))) : Prop where
  lineAt_eq : ∀ n, m.lineAt n = 1 + (takeBytes n t).count '\n'
  lines_eq : lines.map (·.map (·.2)) = splitLines (· == '\n') t
  hasCode_eq : m.countedLines.map (·.hasCode) = lines.map (·.any showsCode)
  total_eq : m.lineCounts.total = (splitLines (· == '\n') t).length
  code_eq : m.lineCounts.code = lines.countP (·.any showsCode)
  comment_eq : m.lineCounts.comment =
    lines.countP fun line => !line.any showsCode && line.any showsComment
  sum_eq : m.lineCounts.code + m.lineCounts.comment + m.lineCounts.blank = m.lineCounts.total

/-- The lines of every text are told by its line ends, and a line counts as code exactly when a
character of code that is no white space, or a character of a literal, stands on it. -/
theorem tallies_of (s : Syntax) (t : List Char) : (of s t).Tallies t (placedLines s t) := by
  have hshown := map_countedLines s t
  have hcode : (of s t).countedLines.map (·.hasCode) =
      (placedLines s t).map (·.any showsCode) := by
    simpa [List.map_map, Function.comp_def, shown] using congrArg (List.map (·.1)) hshown
  refine ⟨lineAt_eq s t, map_snd_placedLines s t, hcode, ?_, ?_, ?_, sum_lineCounts _⟩
  · have hlength := congrArg List.length hcode
    rw [List.length_map, List.length_map] at hlength
    rw [← map_snd_placedLines, List.length_map, ← hlength]
    rfl
  · have hcount := congrArg (List.countP id) hcode
    rwa [List.countP_map, List.countP_map] at hcount
  · have hcount := congrArg (List.countP fun p : Bool × Bool => !p.1 && p.2) hshown
    rwa [List.countP_map, List.countP_map] at hcount

end Masked

end MigrationAudit.Source
