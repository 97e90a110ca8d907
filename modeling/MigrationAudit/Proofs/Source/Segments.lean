import MigrationAudit.Source.Segment
import Mathlib.Data.List.Basic

/-!
# How a text is cut

A character is code when nothing that opens a comment or a literal starts with it. A literal starts
with one of the delimiters of its language, and the delimiter says how the literal is read. What is
behind some segments is cut as if nothing stood before it.
-/

namespace MigrationAudit.Source

/-! ## Openings -/

/-- What comments and literals start with. -/
def Syntax.openers : Syntax → List (List Char)
  | .pascal => [['/', '/'], ['\x7b'], ['(', '*'], ['\'']]
  | .java => [['/', '/'], ['/', '*'], ['"'], ['\'']]

theorem ne_nil_of_mem_openers {s : Syntax} {o : List Char} (h : o ∈ s.openers) : o ≠ [] := by
  cases s <;> revert o <;> decide

theorem firstSegment_eq_code_iff {s : Syntax} {c : Char} {cs : List Char} :
    firstSegment s c cs = (.code c, cs) ↔ ∀ o ∈ s.openers, ¬ o <+: c :: cs := by
  unfold firstSegment
  constructor
  · intro h
    split at h
    case h_9 =>
      -- no other case applied, so the text has none of their forms
      cases s <;> simp only [Syntax.openers, List.mem_cons, List.not_mem_nil, or_false,
        forall_eq_or_imp, forall_eq, List.cons_prefix_iff]
      all_goals grind
    all_goals simp [lineComment, blockComment, Body.segment] at h
  · intro h
    split
    case h_9 => rfl
    case h_1 => cases s <;> simp [Syntax.openers, List.cons_prefix_iff] at h
    all_goals simp [Syntax.openers, List.cons_prefix_iff] at h

theorem segments_of_unopened {s : Syntax} {t : List Char} (h : ∀ o ∈ s.openers, ¬o <:+: t) :
    segments s t = t.map .code := by
  induction t with
  | nil => rw [segments, List.map_nil]
  | cons c cs ih =>
    have hcode : firstSegment s c cs = (.code c, cs) :=
      firstSegment_eq_code_iff.mpr fun o ho hbegins => h o ho hbegins.isInfix
    have hcs : ∀ o ∈ s.openers, ¬o <:+: cs := fun o ho hpart =>
      h o ho (hpart.trans (List.suffix_cons c cs).isInfix)
    rw [segments, hcode, ih hcs, List.map_cons]

/-- Characters with which no comment and no literal starts are code, whatever follows. -/
theorem segments_code_append {s : Syntax} {t : List Char}
    (h : ∀ c ∈ t, ∀ o ∈ s.openers, o.head? ≠ some c) (rest : List Char) :
    segments s (t ++ rest) = t.map .code ++ segments s rest := by
  induction t with
  | nil => rfl
  | cons c t ih =>
    obtain ⟨hc, ht⟩ := List.forall_mem_cons.mp h
    have hcode : firstSegment s c (t ++ rest) = (.code c, t ++ rest) := by
      refine firstSegment_eq_code_iff.mpr fun o ho hbegins => hc o ho ?_
      obtain ⟨d, o, rfl⟩ := List.exists_cons_of_ne_nil (ne_nil_of_mem_openers ho)
      exact congrArg some (List.cons_prefix_cons.mp hbegins).1
    rw [List.cons_append, segments, hcode, ih ht]
    rfl

/-- A text that cannot hold what comments and literals start with is code throughout. -/
theorem segments_eq_map_code {s : Syntax} {t : List Char}
    (h : ∀ o ∈ s.openers, ∃ c ∈ o, c ∉ t) : segments s t = t.map .code := by
  refine segments_of_unopened fun o ho hpart => ?_
  obtain ⟨c, hc, hnot⟩ := h o ho
  exact hnot (hpart.subset hc)

/-- The delimiters of literals, each with the reader of what follows it. -/
inductive Opens : Syntax → List Char → (List Char → Body) → Prop
  | doubled : Opens .pascal ['\''] Body.doubled
  | escaped {q : Char} (hq : q = '"' ∨ q = '\'') : Opens .java [q] (Body.escaped q)
  | block : Opens .java ['"', '"', '"'] Body.block

theorem Opens.source_eq {s : Syntax} {quote : List Char} {read : List Char → Body}
    (h : Opens s quote read) (inner : List Char) :
    (read inner).source quote ++ (read inner).rest = inner := by
  cases h with
  | doubled => exact Body.source_doubled inner
  | @escaped q _ => exact Body.source_escaped q inner
  | block => exact Body.source_block inner

/-- A literal starts with a delimiter when what follows does not make a longer one of it. -/
structure OpensAt (s : Syntax) (quote : List Char) (read : List Char → Body)
    (inner : List Char) : Prop where
  opens : Opens s quote read
  not_block : quote = ['"'] → ¬ ['"', '"'] <+: inner

theorem OpensAt.firstSegment_eq {s : Syntax} {quote inner : List Char} {read : List Char → Body}
    (h : OpensAt s quote read inner) {c : Char} {cs : List Char} (ht : c :: cs = quote ++ inner) :
    firstSegment s c cs = ((read inner).segment quote, (read inner).rest) := by
  obtain ⟨hopens, hblock⟩ := h
  cases hopens with
  | doubled =>
    obtain ⟨rfl, rfl⟩ := List.cons.inj ht
    rfl
  | escaped hq =>
    obtain ⟨rfl, rfl⟩ := List.cons.inj ht
    rcases hq with rfl | rfl
    · unfold firstSegment
      split <;> simp_all
    · rfl
  | block =>
    obtain ⟨rfl, rfl⟩ := List.cons.inj ht
    rfl

theorem OpensAt.segments_eq {s : Syntax} {quote inner : List Char} {read : List Char → Body}
    (h : OpensAt s quote read inner) :
    segments s (quote ++ inner) = (read inner).segment quote :: segments s (read inner).rest := by
  have hquote : quote ≠ [] := by
    cases h.opens <;> simp
  obtain ⟨c, cs, rfl⟩ := List.exists_cons_of_ne_nil hquote
  rw [List.cons_append, segments, h.firstSegment_eq List.cons_append.symm]

theorem exists_opensAt {s : Syntax} {c : Char} {cs quote : List Char} {pieces : List Piece}
    {closed : Bool} (h : (firstSegment s c cs).1 = .literal quote pieces closed) :
    ∃ read inner, OpensAt s quote read inner ∧ c :: cs = quote ++ inner := by
  unfold firstSegment at h
  split at h
  case h_5 =>
    obtain ⟨rfl, -, -⟩ := Segment.literal.inj h
    exact ⟨_, _, ⟨.doubled, by simp⟩, rfl⟩
  case h_6 =>
    obtain ⟨rfl, -, -⟩ := Segment.literal.inj h
    exact ⟨_, _, ⟨.block, by simp⟩, rfl⟩
  case h_7 hblock =>
    obtain ⟨rfl, -, -⟩ := Segment.literal.inj h
    exact ⟨_, _, ⟨.escaped (.inl rfl), fun _ ⟨body, hbody⟩ => hblock body hbody.symm⟩, rfl⟩
  case h_8 =>
    obtain ⟨rfl, -, -⟩ := Segment.literal.inj h
    exact ⟨_, _, ⟨.escaped (.inr rfl), by simp⟩, rfl⟩
  all_goals simp [lineComment, blockComment] at h

theorem firstSegment_cases (s : Syntax) (c : Char) (cs : List Char) :
    firstSegment s c cs = (.code c, cs) ∨
      (∃ text rest, firstSegment s c cs = (.comment text, rest)) ∨
      ∃ quote read inner, OpensAt s quote read inner ∧ c :: cs = quote ++ inner := by
  rcases hfirst : firstSegment s c cs with ⟨seg, rest⟩
  cases seg with
  | code d =>
    left
    unfold firstSegment at hfirst
    split at hfirst
    case h_9 => rw [hfirst]
    all_goals simp [lineComment, blockComment, Body.segment] at hfirst
  | comment text => exact .inr (.inl ⟨text, rest, rfl⟩)
  | literal quote pieces closed =>
    obtain ⟨read, inner, hopens⟩ := exists_opensAt (congrArg Prod.fst hfirst)
    exact .inr (.inr ⟨quote, read, inner, hopens⟩)

/-! ## Cuts -/

/-- Segments that are behind others are what is cut from the rest of the text. -/
theorem segments_of_append {s : Syntax} {t : List Char} {before after : List Segment}
    (h : segments s t = before ++ after) : segments s (after.flatMap Segment.source) = after := by
  induction before generalizing t with
  | nil =>
    rw [List.nil_append] at h
    rw [← h, source_segments]
  | cons seg before ih =>
    cases t with
    | nil => simp [segments] at h
    | cons c cs =>
      rw [segments, List.cons_append, List.cons.injEq] at h
      exact ih h.2

/-- A literal among the segments starts with its delimiter where it stands, and ends where the next
segment starts. -/
theorem exists_opensAt_of_segments {s : Syntax} {t quote : List Char} {pieces : List Piece}
    {closed : Bool} {before after : List Segment}
    (h : segments s t = before ++ .literal quote pieces closed :: after) :
    ∃ read tail, OpensAt s quote read tail ∧
      (Segment.literal quote pieces closed :: after).flatMap Segment.source = quote ++ tail ∧
      (read tail).segment quote = .literal quote pieces closed ∧
      (read tail).rest = after.flatMap Segment.source := by
  have hbehind := segments_of_append h
  cases hcut : (Segment.literal quote pieces closed :: after).flatMap Segment.source with
  | nil => simp [hcut, segments] at hbehind
  | cons c cs =>
    rw [hcut, segments, List.cons.injEq] at hbehind
    obtain ⟨read, tail, hopens, htail⟩ := exists_opensAt hbehind.1
    rw [hopens.firstSegment_eq htail] at hbehind
    refine ⟨read, tail, hopens, htail, hbehind.1, ?_⟩
    rw [← hbehind.2, source_segments]

theorem exists_firstSegment_of_mem {s : Syntax} {t : List Char} {seg : Segment}
    (h : seg ∈ segments s t) : ∃ c cs, (firstSegment s c cs).1 = seg := by
  fun_induction segments s t with
  | case1 => simp at h
  | case2 c cs ih =>
    rcases List.mem_cons.mp h with rfl | h
    · exact ⟨c, cs, rfl⟩
    · exact ih h

end MigrationAudit.Source
