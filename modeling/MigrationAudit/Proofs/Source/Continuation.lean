import MigrationAudit.Proofs.Source.Mask
import MigrationAudit.Proofs.Source.Segments
import MigrationAudit.Proofs.Text.Continuation
import Mathlib.Data.List.Infix

/-!
# Sources that go on

When the last character of a source is code and opens nothing, what stands behind it is cut as if it
stood alone, so the masked source goes on with what is masked behind it. Lines are counted by the
line ends in front of a position, whatever follows.
-/

namespace MigrationAudit.Source

open Text

/-! ## Segments -/

theorem length_le_of_throughClose {close cs : List Char} (h : (throughClose close cs).2 ≠ []) :
    close.length ≤ cs.length := by
  induction cs with
  | nil => simp [throughClose] at h
  | cons c cs ih =>
    simp only [throughClose] at h
    split at h
    · next hprefix => exact (List.isPrefixOf_iff_prefix.mp hprefix).length_le
    · exact (ih h).trans (Nat.le_succ _)

theorem throughClose_append_right {close cs : List Char} (h : (throughClose close cs).2 ≠ [])
    (more : List Char) :
    throughClose close (cs ++ more) =
      ((throughClose close cs).1, (throughClose close cs).2 ++ more) := by
  induction cs with
  | nil => simp [throughClose] at h
  | cons c cs ih =>
    have hlength := length_le_of_throughClose h
    have hiff : close.isPrefixOf (c :: (cs ++ more)) = close.isPrefixOf (c :: cs) := by
      rw [Bool.eq_iff_iff, List.isPrefixOf_iff_prefix, List.isPrefixOf_iff_prefix]
      exact ⟨fun hprefix => List.prefix_of_prefix_length_le hprefix ⟨more, rfl⟩ hlength,
        fun hprefix => hprefix.trans ⟨more, rfl⟩⟩
    simp only [throughClose, List.cons_append, hiff] at h ⊢
    split
    · rw [← List.cons_append, List.take_append_of_le_length hlength,
        List.drop_append_of_le_length hlength]
    · next hprefix =>
      rw [if_neg hprefix] at h
      rw [ih h]

theorem Body.doubled_append {cs : List Char} (h : (doubled cs).rest ≠ []) (more : List Char) :
    doubled (cs ++ more) = { doubled cs with rest := (doubled cs).rest ++ more } := by
  fun_induction doubled cs with
  | case1 => simp at h
  | case2 rest => rfl
  | case3 rest ih =>
    rw [List.cons_append, List.cons_append, doubled, ih h]
    rfl
  | case4 rest hrest =>
    -- the quote that closes the literal is not the last character, so it cannot become doubled
    obtain ⟨d, rest, rfl⟩ := List.exists_cons_of_ne_nil h
    have hd : d ≠ '\'' := fun heq => hrest rest (by rw [heq])
    rw [List.cons_append, List.cons_append, doubled]
    rintro tail heq
    exact hd (List.cons.inj heq).1
  | case5 c rest hnewline hpair hquote ih =>
    rw [List.cons_append, doubled, ih h]
    · rfl
    all_goals simp_all

/-- What is cut off a text that does not end there is cut off every longer text. -/
theorem firstSegment_append {c : Char} {cs : List Char} (h : (firstSegment .pascal c cs).2 ≠ [])
    (more : List Char) :
    firstSegment .pascal c (cs ++ more) =
      ((firstSegment .pascal c cs).1, (firstSegment .pascal c cs).2 ++ more) := by
  by_cases hcode : ∀ o ∈ Syntax.pascal.openers, ¬ o <+: c :: cs
  · have hfirst := firstSegment_eq_code_iff.mpr hcode
    rw [hfirst] at h ⊢
    apply firstSegment_eq_code_iff.mpr
    intro o ho hprefix
    have hlength : o.length ≤ (c :: cs).length := by
      have hpos := List.length_pos_iff.mpr h
      have hshort : ∀ o ∈ Syntax.pascal.openers, o.length ≤ 2 := by decide
      exact (hshort o ho).trans (Nat.succ_le_succ hpos)
    exact hcode o ho (List.prefix_of_prefix_length_le hprefix ⟨more, rfl⟩ hlength)
  · simp only [not_forall, not_not] at hcode
    obtain ⟨o, ho, tail, hcs⟩ := hcode
    simp only [Syntax.openers, List.mem_cons, List.not_mem_nil, or_false] at ho
    rcases ho with rfl | rfl | rfl | rfl
    · obtain ⟨rfl, rfl⟩ : '/' = c ∧ '/' :: tail = cs := List.cons.inj hcs
      have hline : ('/' :: tail).dropWhile (· != '\n') ≠ [] := h
      obtain ⟨htake, hdrop⟩ := splitWhile_append hline more
      change lineComment '/' ('/' :: tail ++ more) = _
      rw [lineComment, htake, hdrop]
      rfl
    · obtain ⟨rfl, rfl⟩ : '\x7b' = c ∧ tail = cs := List.cons.inj hcs
      change blockComment ['\x7d'] '\x7b' (tail ++ more) = _
      rw [blockComment, throughClose_append_right h]
      rfl
    · obtain ⟨rfl, rfl⟩ : '(' = c ∧ '*' :: tail = cs := List.cons.inj hcs
      have hclose : (throughClose ['*', ')'] ('*' :: tail)).2 ≠ [] := h
      change blockComment ['*', ')'] '(' ('*' :: tail ++ more) = _
      rw [blockComment, throughClose_append_right hclose]
      rfl
    · obtain ⟨rfl, rfl⟩ : '\'' = c ∧ tail = cs := List.cons.inj hcs
      change ((Body.doubled (tail ++ more)).segment ['\''], (Body.doubled (tail ++ more)).rest) = _
      rw [Body.doubled_append h]
      rfl

/-- Behind a last character that is code and opens nothing, a text is cut as if it stood alone. -/
theorem segments_append {a : List Char} {c : Char}
    (h : (segments .pascal a).getLast? = some (.code c))
    (hc : ∀ o ∈ Syntax.pascal.openers, o.head? ≠ some c) (b : List Char) :
    segments .pascal (a ++ b) = segments .pascal a ++ segments .pascal b := by
  fun_induction segments .pascal a with
  | case1 => simp at h
  | case2 d cs ih =>
    by_cases hrest : (firstSegment .pascal d cs).2 = []
    · -- the character is the whole of what is left
      have hsource := source_firstSegment .pascal d cs
      rw [hrest, segments] at h
      obtain hfirst : (firstSegment .pascal d cs).1 = .code c := by simpa using h
      rw [hrest, hfirst] at hsource
      obtain ⟨rfl, rfl⟩ : c = d ∧ [] = cs := List.cons.inj hsource
      have hcode : firstSegment .pascal c b = (.code c, b) := by
        apply firstSegment_eq_code_iff.mpr
        rintro o ho ⟨tail, htail⟩
        cases o with
        | nil => simp [Syntax.openers] at ho
        | cons d o => exact hc _ ho (by simpa using (List.cons.inj htail).1)
      rw [hrest, segments, hfirst, List.cons_append, List.nil_append, segments, hcode]
      rfl
    · have hne : segments .pascal (firstSegment .pascal d cs).2 ≠ [] := by
        obtain ⟨e, es, hes⟩ := List.exists_cons_of_ne_nil hrest
        rw [hes, segments]
        exact List.cons_ne_nil _ _
      rw [List.getLast?_cons_of_ne_nil hne] at h
      rw [List.cons_append, segments, firstSegment_append hrest, ih h, List.cons_append]

/-! ## Lines -/

theorem countP_linesFrom (limit n : Nat) (current : Line) (marks : List (Char × Mark)) :
    (linesFrom n current marks).countP (·.start ≤ limit) =
      (if current.start ≤ limit then 1 else 0) +
        (takeBytes (limit - n) (marks.map (·.1))).count '\n' := by
  induction marks generalizing n current with
  | nil => simp [linesFrom, List.countP_cons]
  | cons mark marks ih =>
    obtain ⟨c, m⟩ := mark
    rw [List.map_cons]
    by_cases hc : c = '\n'
    · subst hc
      have hlines : linesFrom n current (('\n', m) :: marks) =
          current :: linesFrom (n + 1) (.startingAt (n + 1)) marks := rfl
      rw [hlines, List.countP_cons, ih, Line.startingAt]
      rcases Nat.lt_or_ge n limit with hlt | hge
      · have hsub : limit - n - '\n'.utf8Size = limit - (n + 1) := Nat.sub_sub ..
        rw [takeBytes_cons (Nat.sub_pos_of_lt hlt), List.count_cons_self, hsub]
        simp only [decide_eq_true_eq, if_pos (Nat.succ_le_of_lt hlt)]
        omega
      · have hsub : limit - n = 0 ∧ limit - (n + 1) = 0 := by omega
        simp only [hsub, takeBytes_zero, List.count_nil, decide_eq_true_eq,
          if_neg (Nat.not_le.mpr (Nat.lt_succ_of_le hge))]
        omega
    · have hlines : linesFrom n current ((c, m) :: marks) =
          linesFrom (n + c.utf8Size) (current.note m) marks := by simp [linesFrom, hc]
      have hstart : (current.note m).start = current.start := by cases m <;> rfl
      rw [hlines, ih, hstart, ← Nat.sub_sub]
      rcases Nat.eq_zero_or_pos (limit - n) with hzero | hpos
      · simp [hzero]
      · rw [takeBytes_cons hpos, List.count_cons_of_ne hc]

theorem map_fst_marks (parts : List Segment) :
    (parts.flatMap Segment.marks).map (·.1) = parts.flatMap Segment.source := by
  rw [List.map_flatMap]
  congr 1
  funext seg
  cases seg <;> simp [Segment.marks, Segment.source, Function.comp_def]

namespace Masked

theorem lineAt_eq (s : Syntax) (t : List Char) (n : Nat) :
    (of s t).lineAt n = 1 + (takeBytes n t).count '\n' := by
  rw [lineAt, of]
  simp only
  rw [countP_linesFrom, map_fst_marks, source_segments]
  rfl

theorem lineAt_width (s : Syntax) {front t : List Char} (h : front <+: t) :
    (of s t).lineAt (width front) = 1 + front.count '\n' := by
  obtain ⟨rest, rfl⟩ := h
  rw [lineAt_eq, takeBytes_width_append]

/-- The masked source `m'` begins as `m`, and `more` follows. -/
structure GoesOn (m m' : Masked) (more : List Char) : Prop where
  code_eq : m'.code = m.code ++ more
  lineAt_eq : ∀ n ≤ width m.code, m'.lineAt n = m.lineAt n

theorem code_eq_flatMap (s : Syntax) (t : List Char) :
    (of s t).code = (segments s t).flatMap Segment.masked := rfl

theorem code_of_segments {s : Syntax} {t : List Char} (h : segments s t = t.map .code) :
    (of s t).code = t := by
  rw [code_eq_flatMap, h, List.flatMap_map]
  exact List.flatMap_singleton' t

theorem code_eq_self {s : Syntax} {t : List Char} (h : ∀ o ∈ s.openers, ∃ c ∈ o, c ∉ t) :
    (of s t).code = t := code_of_segments (segments_eq_map_code h)

theorem goesOn_of_append {a : List Char} {c : Char}
    (h : (segments .pascal a).getLast? = some (.code c))
    (hc : ∀ o ∈ Syntax.pascal.openers, o.head? ≠ some c) (b : List Char) :
    (of .pascal a).GoesOn (of .pascal (a ++ b)) (of .pascal b).code := by
  constructor
  case code_eq => simp only [code_eq_flatMap, segments_append h hc, List.flatMap_append]
  case lineAt_eq =>
    intro n hn
    have hmasks : Masks (of .pascal a).code a := masks_segments .pascal a
    rw [lineAt_eq, lineAt_eq, takeBytes_append_of_le (hn.trans hmasks.width_eq.le)]

theorem getLast?_code {s : Syntax} {t : List Char} {c : Char}
    (h : (segments s t).getLast? = some (.code c)) : (of s t).code.getLast? = some c := by
  obtain ⟨parts, hparts⟩ := List.getLast?_eq_some_iff.mp h
  rw [code_eq_flatMap, hparts, List.flatMap_append]
  exact List.getLast?_concat ..

end Masked

end MigrationAudit.Source
