import MigrationAudit.Proofs.Source.Mask

/-!
# Where block comments end

A comment between two-character marks runs through the first closing mark that begins behind the
first character of the opening one. So the two marks may share their star. When they do, the comment
ends before the first closing mark that begins behind the whole opening one, unless nothing follows.
-/

namespace MigrationAudit.Source

open Text

/-! ## Closing marks -/

/-- The text ends with the first `close` that begins behind its first `n` characters; where there is
none, the text is all there is. -/
def RunsThrough (close : List Char) (n : Nat) (text rest : List Char) : Prop :=
  (∃ i, n ≤ i ∧ close <+: (text ++ rest).drop i ∧ text.length = i + close.length ∧
    ∀ j, n ≤ j → close <+: (text ++ rest).drop j → i ≤ j) ∨
  (rest = [] ∧ ∀ j, n ≤ j → ¬ close <+: text.drop j)

namespace RunsThrough

variable {close text rest : List Char} {n : Nat}

theorem cons (h : RunsThrough close n text rest) (c : Char) :
    RunsThrough close (n + 1) (c :: text) rest := by
  rcases h with ⟨i, hi, hclose, hlength, hfirst⟩ | ⟨hrest, hnone⟩
  · left
    refine ⟨i + 1, Nat.succ_le_succ hi, hclose, ?_, ?_⟩
    · rw [List.length_cons, hlength]
      omega
    · intro j hj hclose'
      obtain ⟨j, rfl⟩ := Nat.exists_eq_succ_of_ne_zero (show j ≠ 0 by omega)
      exact Nat.succ_le_succ (hfirst j (Nat.le_of_succ_le_succ hj) hclose')
  · right
    refine ⟨hrest, ?_⟩
    intro j hj
    obtain ⟨j, rfl⟩ := Nat.exists_eq_succ_of_ne_zero (show j ≠ 0 by omega)
    exact hnone j (Nat.le_of_succ_le_succ hj)

/-- Where no closing mark begins, it does not matter whether one may begin there. -/
theorem succ_iff_of_not_begins (hnot : ¬ close <+: (text ++ rest).drop n) :
    RunsThrough close (n + 1) text rest ↔ RunsThrough close n text rest := by
  have hbehind : ∀ j, n ≤ j → close <+: (text ++ rest).drop j → n + 1 ≤ j := by
    intro j hj hclose
    apply Nat.lt_of_le_of_ne hj
    rintro rfl
    exact hnot hclose
  constructor
  · rintro (⟨i, hi, hclose, hlength, hfirst⟩ | ⟨rfl, hnone⟩)
    · left
      refine ⟨i, Nat.le_of_succ_le hi, hclose, hlength, ?_⟩
      intro j hj hclose'
      exact hfirst j (hbehind j hj hclose') hclose'
    · right
      refine ⟨rfl, ?_⟩
      intro j hj hclose
      exact hnone j (hbehind j hj (by rwa [List.append_nil])) hclose
  · rintro (⟨i, hi, hclose, hlength, hfirst⟩ | ⟨hrest, hnone⟩)
    · left
      refine ⟨i, hbehind i hi hclose, hclose, hlength, ?_⟩
      intro j hj hclose'
      exact hfirst j (Nat.le_of_succ_le hj) hclose'
    · right
      exact ⟨hrest, fun j hj => hnone j (Nat.le_of_succ_le hj)⟩

/-- A text that runs through a closing mark behind its first `n` characters does not run through a
later one, unless it is all there is. -/
theorem succ_iff_of_begins (h : RunsThrough close n text rest) (hclose : close ≠ [])
    (hbegins : close <+: (text ++ rest).drop n) :
    RunsThrough close (n + 1) text rest ↔ rest = [] := by
  rcases h with ⟨i, hi, _, hlength, hfirst⟩ | ⟨rfl, hnone⟩
  · have hin : i = n := Nat.le_antisymm (hfirst n (Nat.le_refl n) hbegins) hi
    subst hin
    constructor
    · rintro (⟨j, hj, _, hlength', _⟩ | ⟨hrest, _⟩)
      · omega
      · exact hrest
    · rintro rfl
      right
      refine ⟨rfl, ?_⟩
      intro j hj hclose'
      have hpos := List.length_pos_of_ne_nil hclose
      have hle := hclose'.length_le
      rw [List.length_drop] at hle
      omega
  · rw [List.append_nil] at hbegins
    exact absurd hbegins (hnone n (Nat.le_refl n))

theorem of_throughClose (hclose : close ≠ []) (t : List Char) :
    RunsThrough close 0 (throughClose close t).1 (throughClose close t).2 := by
  induction t with
  | nil =>
    right
    refine ⟨rfl, ?_⟩
    intro j _ hbegins
    simp [throughClose, hclose] at hbegins
  | cons c t ih =>
    have happend := throughClose_append close (c :: t)
    rw [throughClose] at happend ⊢
    split at happend <;> rename_i hbegins
    · rw [if_pos hbegins]
      have hbegins := List.isPrefixOf_iff_prefix.mp hbegins
      left
      refine ⟨0, Nat.le_refl _, ?_, ?_, fun j hj _ => hj⟩
      · rwa [happend]
      · rw [List.length_take, Nat.min_eq_left hbegins.length_le, Nat.zero_add]
    · rw [if_neg hbegins]
      apply (succ_iff_of_not_begins ?_).mp (ih.cons c)
      rw [happend]
      exact fun h => hbegins (List.isPrefixOf_iff_prefix.mpr h)

end RunsThrough

/-! ## Comments -/

namespace Syntax

def commentOpen : Syntax → List Char
  | .pascal => ['(', '*']
  | .java => ['/', '*']

def commentClose : Syntax → List Char
  | .pascal => ['*', ')']
  | .java => ['*', '/']

end Syntax

/-- The text is cut between `a` and `rest`: `a` is code with whole comments and literals, and `rest`
is read as code again. -/
def IsCut (s : Syntax) (a rest : List Char) : Prop :=
  ∃ before, before.flatMap Segment.source = a ∧ segments s (a ++ rest) = before ++ segments s rest

theorem IsCut.of_segments {s : Syntax} {t : List Char} {before after : List Segment}
    (h : segments s t = before ++ after) :
    IsCut s (before.flatMap Segment.source) (after.flatMap Segment.source) := by
  refine ⟨before, rfl, ?_⟩
  rw [segments_of_append h, ← h, ← List.flatMap_append, ← h, source_segments]

theorem segments_commentOpen (s : Syntax) (tail : List Char) :
    ∃ c, s.commentOpen = [c, '*'] ∧ segments s (s.commentOpen ++ tail) =
      .comment (c :: (throughClose s.commentClose ('*' :: tail)).1) ::
        segments s (throughClose s.commentClose ('*' :: tail)).2 := by
  cases s
  · refine ⟨'(', rfl, ?_⟩
    rw [Syntax.commentOpen, List.cons_append, segments]
    rfl
  · refine ⟨'/', rfl, ?_⟩
    rw [Syntax.commentOpen, List.cons_append, segments]
    rfl

/-- Behind a cut, a comment takes its place in the code as blank characters, and its end is a cut. -/
theorem IsCut.comment {s : Syntax} {a text rest : List Char} (h : IsCut s a (text ++ rest))
    (hcomment : segments s (text ++ rest) = .comment text :: segments s rest) :
    IsCut s (a ++ text) rest ∧
      (Span.mk (width a) (width a + width text)).slice (Masked.of s (a ++ (text ++ rest))).code =
        text.flatMap blank := by
  obtain ⟨before, rfl, hcut⟩ := h
  constructor
  · refine ⟨before ++ [.comment text], ?_, ?_⟩
    · rw [List.flatMap_append, List.flatMap_singleton]
      rfl
    · rw [List.append_assoc, hcut, hcomment, List.append_assoc, List.singleton_append]
  · have hcode : (Masked.of s (before.flatMap Segment.source ++ (text ++ rest))).code =
        before.flatMap Segment.masked ++
          (text.flatMap blank ++ (segments s rest).flatMap Segment.masked) := by
      change (segments s _).flatMap Segment.masked = _
      rw [hcut, hcomment, List.flatMap_append, List.flatMap_cons]
      rfl
    rw [hcode, Span.slice, Span.length, Nat.add_sub_cancel_left, ← (masks_flatMap before).width_eq,
      dropBytes_width_append, ← (Masks.flatMap_blank text).width_eq, takeBytes_width_append]

theorem blockComment_runsThrough {s : Syntax} {a tail : List Char}
    (h : IsCut s a (s.commentOpen ++ tail)) :
    ∃ text rest, s.commentOpen ++ tail = text ++ rest ∧ IsCut s (a ++ text) rest ∧
      (Span.mk (width a) (width a + width text)).slice
          (Masked.of s (a ++ (s.commentOpen ++ tail))).code = text.flatMap blank ∧
      RunsThrough s.commentClose 1 text rest ∧
      (RunsThrough s.commentClose 2 text rest ↔
        (s.commentClose <+: '*' :: tail → rest = [])) := by
  obtain ⟨c, hopen, hsegments⟩ := segments_commentOpen s tail
  have happend := throughClose_append s.commentClose ('*' :: tail)
  have hclose : s.commentClose ≠ [] := by cases s <;> simp [Syntax.commentClose]
  have hruns := RunsThrough.of_throughClose hclose ('*' :: tail)
  generalize (throughClose s.commentClose ('*' :: tail)).1 = text at *
  generalize (throughClose s.commentClose ('*' :: tail)).2 = rest at *
  have htext : s.commentOpen ++ tail = (c :: text) ++ rest := by
    rw [hopen]
    exact congrArg (c :: ·) happend.symm
  have hruns := hruns.cons c
  rw [htext] at h hsegments ⊢
  obtain ⟨hcut, hslice⟩ := h.comment hsegments
  refine ⟨c :: text, rest, rfl, hcut, hslice, hruns, ?_⟩
  by_cases hbegins : s.commentClose <+: '*' :: tail
  · rw [hruns.succ_iff_of_begins hclose
      (by rwa [List.cons_append, List.drop_one, List.tail_cons, happend])]
    exact ⟨fun hrest _ => hrest, fun hrest => hrest hbegins⟩
  · rw [RunsThrough.succ_iff_of_not_begins
      (by rwa [List.cons_append, List.drop_one, List.tail_cons, happend])]
    exact ⟨fun _ hclose => absurd hclose hbegins, fun _ => hruns⟩

theorem blockComment_runsThrough_slash :
    IsCut .java ['x', ' '] (Syntax.java.commentOpen ++ "/ y */ z".toList) ∧
      ∃ text rest, Syntax.java.commentOpen ++ "/ y */ z".toList = text ++ rest ∧
        IsCut .java (['x', ' '] ++ text) rest ∧
        (Span.mk (width ['x', ' ']) (width ['x', ' '] + width text)).slice
            (Masked.of .java (['x', ' '] ++ (Syntax.java.commentOpen ++ "/ y */ z".toList))).code =
          text.flatMap blank ∧
        RunsThrough Syntax.java.commentClose 1 text rest ∧
        (RunsThrough Syntax.java.commentClose 2 text rest ↔
          (Syntax.java.commentClose <+: '*' :: "/ y */ z".toList → rest = [])) := by
  have hsegments : segments .java "x /*/ y */ z".toList =
      [.code 'x', .code ' '] ++ (.comment ['/', '*', '/'] :: " y */ z".toList.map .code) := by
    simp [segments, firstSegment, blockComment, throughClose]
  have hcut := IsCut.of_segments hsegments
  exact ⟨hcut, blockComment_runsThrough hcut⟩

end MigrationAudit.Source
