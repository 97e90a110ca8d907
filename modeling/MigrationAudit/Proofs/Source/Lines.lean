import MigrationAudit.Proofs.Lists
import MigrationAudit.Proofs.Source.Continuation
import MigrationAudit.Proofs.Text.Slices
import MigrationAudit.Source.Masked

/-!
# Lines of a source

A line end at the very end of a text opens no further line, so the line of a position is one of those
that are counted exactly when a character stands at the position or behind it. Every line that is
counted holds code, or else a comment, or neither.
-/

namespace MigrationAudit

open Text

theorem Text.count_takeBytes_le (n : Nat) (cs : List Char) (c : Char) :
    (takeBytes n cs).count c ≤ cs.count c := by
  have hprefix : takeBytes n cs <+: cs := ⟨_, takeBytes_append_dropBytes n cs⟩
  exact hprefix.sublist.count_le c

namespace Source

/-! ## Line ends -/

namespace Masks

variable {m t : List Char}

theorem count_takeBytes (h : Masks m t) (n : Nat) :
    (takeBytes n m).count '\n' = (takeBytes n t).count '\n' := by
  induction h generalizing n with
  | nil => rfl
  | keep c _ ih =>
    rcases Nat.eq_zero_or_pos n with rfl | hn
    · simp
    · rw [takeBytes_cons hn, takeBytes_cons hn, List.count_cons, List.count_cons, ih]
  | @hide c hc m t _ ih =>
    have hspaces : ∀ k n, (takeBytes n (List.replicate k ' ' ++ m)).count '\n' =
        (takeBytes (n - k) m).count '\n' := by
      intro k
      induction k with
      | zero => simp
      | succ k ihk =>
        intro n
        rcases Nat.eq_zero_or_pos n with rfl | hn
        · simp
        · have hsub : n - (k + 1) = n - ' '.utf8Size - k := by rw [Nat.add_comm, Nat.sub_sub]; rfl
          rw [List.replicate_succ, List.cons_append, takeBytes_cons hn,
            List.count_cons_of_ne (by decide), ihk, hsub]
    rw [hspaces, ih]
    rcases Nat.eq_zero_or_pos n with rfl | hn
    · simp
    · rw [takeBytes_cons hn, List.count_cons_of_ne hc]

theorem count_lineEnds (h : Masks m t) : m.count '\n' = t.count '\n' := by
  have hm := takeBytes_width_append m []
  have ht := takeBytes_width_append t []
  rw [List.append_nil] at hm ht
  have hcount := h.count_takeBytes (width m)
  rwa [hm, h.width_eq, ht] at hcount

end Masks

theorem length_linesFrom (n : Nat) (current : Line) (marks : List (Char × Mark)) :
    (linesFrom n current marks).length = (marks.map (·.1)).count '\n' + 1 := by
  induction marks generalizing n current with
  | nil => rfl
  | cons mark marks ih =>
    obtain ⟨c, m⟩ := mark
    by_cases hc : c = '\n'
    · subst hc
      have hlines : linesFrom n current (('\n', m) :: marks) =
          current :: linesFrom (n + 1) (.startingAt (n + 1)) marks := rfl
      rw [hlines, List.length_cons, ih, List.map_cons, List.count_cons_self]
    · have hlines : linesFrom n current ((c, m) :: marks) =
          linesFrom (n + c.utf8Size) (current.note m) marks := by simp [linesFrom, hc]
      rw [hlines, ih, List.map_cons, List.count_cons_of_ne hc]

namespace Masked

/-- The lines of a text are counted, the one with this number among them. -/
def HasLine (m : Masked) (n : Nat) : Prop := 1 ≤ n ∧ n ≤ m.lineCounts.total

theorem total_lineCounts (s : Syntax) (t : List Char) :
    (of s t).lineCounts.total =
      if (of s t).code.getLast?.all (· == '\n') then (of s t).code.count '\n'
      else (of s t).code.count '\n' + 1 := by
  have hlength : (of s t).lines.length = (of s t).code.count '\n' + 1 := by
    rw [code_eq_flatMap, (masks_segments s t).count_lineEnds, of]
    simp only
    rw [length_linesFrom, map_fst_marks, source_segments]
  rw [lineCounts, countedLines]
  simp only
  split
  · rw [List.length_dropLast, hlength, Nat.add_sub_cancel]
  · exact hlength

/-- The line of every position in front of a character is counted. -/
def CountsLines (m : Masked) : Prop := ∀ n < width m.code, m.HasLine (m.lineAt n)

theorem countsLines_of (s : Syntax) (t : List Char) : (of s t).CountsLines := by
  intro n h
  have hline : (of s t).lineAt n = 1 + (takeBytes n (of s t).code).count '\n' := by
    rw [lineAt_eq, code_eq_flatMap, (masks_segments s t).count_takeBytes]
  refine ⟨hline ▸ Nat.le_add_right .., ?_⟩
  rw [total_lineCounts, hline]
  generalize (of s t).code = code at h
  rcases List.eq_nil_or_concat' code with rfl | ⟨front, c, rfl⟩
  · simp [width] at h
  · rw [List.getLast?_concat, Option.all_some]
    split
    · next hc =>
      obtain rfl : c = '\n' := by simpa using hc
      have hle : n ≤ width front := by
        rw [width_append] at h
        exact Nat.lt_succ_iff.mp h
      rw [takeBytes_append_of_le hle, List.count_append, List.count_singleton_self]
      have := count_takeBytes_le n front '\n'
      omega
    · have := count_takeBytes_le n (front ++ [c]) '\n'
      omega

theorem CountsLines.of_standsIn {m : Masked} (h : m.CountsLines) {c : Cursor}
    (hc : c.StandsIn m.code) (hne : c.after ≠ []) : m.HasLine (m.lineAt c.offset) :=
  h _ (hc.offset_lt hne)

theorem hasLine_of_mem_literals {s : Syntax} {t : List Char} {l : Literal}
    (h : l ∈ (of s t).literals) : (of s t).HasLine ((of s t).lineAt l.span.start) := by
  have hstop := (boundaries_of_mem_literals h).2.2.le_width
  exact countsLines_of s t _ (Nat.lt_of_lt_of_le (start_lt_stop_of_mem_literals h) hstop)

theorem sum_lineCounts (m : Masked) :
    m.lineCounts.code + m.lineCounts.comment + m.lineCounts.blank = m.lineCounts.total := by
  simp only [lineCounts]
  induction m.countedLines with
  | nil => rfl
  | cons line lines ih =>
    simp only [List.countP_cons, List.length_cons, ← ih]
    cases line.hasCode <;> cases line.hasComment <;> simp <;> omega

end Masked

end Source

/-! ## Lines of facts -/

/-- A class and its members stand on lines of a kind. -/
structure ClassDecl.LinesIn (P : Nat → Prop) (c : ClassDecl) : Prop where
  own : P c.line
  methods : ∀ r ∈ c.methods, P r.line
  fields : ∀ f ∈ c.fields, P f.line

/-- A note on a construct names a line of a kind. -/
def Diagnostic.LineIn (P : Nat → Prop) (d : Diagnostic) : Prop :=
  d.kind = .malformedConstruct ∧ ∃ n ∈ d.line, P n

theorem Diagnostic.lineIn_malformed {P : Nat → Prop} {n : Nat} (h : P n) (path reason : String) :
    (malformed path reason n).LineIn P := ⟨rfl, n, rfl, h⟩

/-- The lines of a unit are counted, and a number is that of one of them. -/
def SourceUnit.HasLine (u : SourceUnit) (n : Nat) : Prop := 1 ≤ n ∧ n ≤ u.metrics.totalLines

/-- All that is recorded of a unit stands on lines of the unit, its operations in the order of their
lines, and every line is counted as code, as comment or as blank. -/
structure SourceUnit.KeepsLines (u : SourceUnit) : Prop where
  classes : ∀ c ∈ u.classes, c.LinesIn u.HasLine
  routines : ∀ r ∈ u.routines, u.HasLine r.line
  dataOps : ∀ op ∈ u.dataOps, u.HasLine op.line
  diagnostics : ∀ d ∈ u.diagnostics, d.LineIn u.HasLine
  sum_eq : u.metrics.codeLines + u.metrics.commentLines + u.metrics.blankLines =
    u.metrics.totalLines
  sorted : u.dataOps.Pairwise fun a b => a.line ≤ b.line

theorem pairwise_line_sortBy (ops : List DataOp) :
    (sortBy (compareOn (·.line)) ops).Pairwise fun a b => a.line ≤ b.line :=
  (pairwise_sortBy (compareOn fun op : DataOp => op.line) ops).imp Nat.isLE_compare.mp

end MigrationAudit
