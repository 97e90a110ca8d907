import MigrationAudit.Proofs.Source.Comments
import MigrationAudit.Proofs.Source.Rescan

/-!
# How literals are written, and where they end

A literal reads as the text that was written in it, quotes and backslashes included, and its span is
what was written. It ends at the first quote that is not escaped, or with its line. Only a text block
does not look at backslashes: it ends at the first three quotes in a row, also when an escaped quote
is the first of them.
-/

namespace MigrationAudit.Source

open Text

/-! ## Assignments of literals -/

namespace Syntax

def quote : Syntax → Char
  | .pascal => '\''
  | .java => '"'

/-- How a character is written in a literal: a quote is doubled or escaped, like a backslash where
there are escapes. -/
def spell : Syntax → Char → List Char
  | .pascal, c => if c == '\'' then ['\'', '\''] else [c]
  | .java, c => if c == '\\' || c == '"' then ['\\', c] else [c]

def read : Syntax → List Char → Body
  | .pascal => Body.doubled
  | .java => Body.escaped '"'

/-- What stands in front of an assigned literal. -/
def target : Syntax → List Char
  | .pascal => "x := ".toList
  | .java => "x = ".toList

end Syntax

def quoted (s : Syntax) (v : List Char) : List Char := s.quote :: (v.flatMap s.spell ++ [s.quote])

/-- Statements that assign texts, each with `gap` behind it. -/
def assignments (s : Syntax) (gap : List Char) (texts : List (List Char)) : List Char :=
  texts.flatMap fun v => s.target ++ (quoted s v ++ ';' :: gap)

def assignmentSegments (s : Syntax) (gap v : List Char) : List Segment :=
  s.target.map .code ++
    .literal [s.quote] (v.map fun c => ⟨s.spell c, [c]⟩) true :: (';' :: gap).map .code

variable {s : Syntax} {gap v rest : List Char}

/-! ## Reading what was written -/

theorem read_spell {c : Char} (hc : c ≠ '\n') (m : List Char) :
    s.read (s.spell c ++ m) = (s.read m).push ⟨s.spell c, [c]⟩ := by
  cases s with
  | pascal =>
    by_cases hquote : c = '\''
    · subst hquote
      rfl
    · rw [Syntax.spell, if_neg (by simpa using hquote)]
      exact Body.doubled_plain hc hquote m
  | java =>
    by_cases hspecial : c = '\\' ∨ c = '"'
    · rcases hspecial with rfl | rfl <;> rfl
    · rw [Syntax.spell, if_neg (by simpa using hspecial)]
      rw [not_or] at hspecial
      exact Body.escaped_plain hc hspecial.1 hspecial.2 m

theorem read_quoted (hv : '\n' ∉ v) (rest : List Char) :
    s.read (v.flatMap s.spell ++ s.quote :: ';' :: rest) =
      ⟨v.map fun c => ⟨s.spell c, [c]⟩, true, ';' :: rest⟩ := by
  have hend : s.read (s.quote :: ';' :: rest) = ⟨[], true, ';' :: rest⟩ := by
    cases s <;> rfl
  rw [read_flatMap fun c hc => read_spell (ne_of_mem_of_not_mem hc hv), hend]
  simp [Body.prepend]

/-- Neither a written text nor what closes it makes a longer delimiter of the quote in front. -/
theorem opensAt_quoted (s : Syntax) (v rest : List Char) :
    OpensAt s [s.quote] s.read (v.flatMap s.spell ++ s.quote :: ';' :: rest) := by
  constructor
  case opens =>
    cases s with
    | pascal => exact .doubled
    | java => exact .escaped (.inl rfl)
  case not_block =>
    intro hquote hbegins
    cases s with
    | pascal => simp [Syntax.quote] at hquote
    | java =>
      cases v with
      | nil => simp [Syntax.quote, List.cons_prefix_cons] at hbegins
      | cons c v =>
        rw [List.flatMap_cons, Syntax.spell] at hbegins
        split at hbegins
        · simp [List.cons_prefix_cons] at hbegins
        · next hplain =>
          obtain ⟨rfl, -⟩ := List.cons_prefix_cons.mp hbegins
          exact hplain rfl

theorem head?_ne_of_isBlank {c : Char} (h : isBlank c = true) :
    ∀ o ∈ s.openers, o.head? ≠ some c := by
  intro o ho hfirst
  have hopener : ∀ o ∈ s.openers, ∀ d ∈ o.head?, isBlank d = false := by
    cases s <;> simp [Syntax.openers] <;> decide
  have hnot := hopener o ho c hfirst
  rw [h] at hnot
  cases hnot

theorem segments_assignment (hgap : ∀ c ∈ gap, isBlank c = true) (hv : '\n' ∉ v)
    (rest : List Char) :
    segments s (s.target ++ (quoted s v ++ ';' :: gap) ++ rest) =
      assignmentSegments s gap v ++ segments s rest := by
  have htarget : ∀ c ∈ s.target, ∀ o ∈ s.openers, o.head? ≠ some c := by
    cases s <;> simp [Syntax.target, Syntax.openers]
  have hend : ∀ c ∈ ';' :: gap, ∀ o ∈ s.openers, o.head? ≠ some c := by
    refine List.forall_mem_cons.mpr ⟨?_, fun c hc => head?_ne_of_isBlank (hgap c hc)⟩
    cases s <;> decide
  have hliteral := (opensAt_quoted s v (gap ++ rest)).segments_eq
  rw [read_quoted hv] at hliteral
  have hbehind := segments_code_append hend rest
  rw [List.cons_append] at hbehind
  rw [List.append_assoc, segments_code_append htarget, quoted, assignmentSegments]
  simp only [List.append_assoc, List.cons_append, List.nil_append] at hliteral ⊢
  rw [hliteral, hbehind]
  rfl

theorem segments_assignments (hgap : ∀ c ∈ gap, isBlank c = true) {texts : List (List Char)}
    (htexts : ∀ v ∈ texts, '\n' ∉ v) :
    segments s (assignments s gap texts) = texts.flatMap (assignmentSegments s gap) := by
  induction texts with
  | nil => rw [assignments, List.flatMap_nil, segments, List.flatMap_nil]
  | cons v texts ih =>
    obtain ⟨hv, htexts⟩ := List.forall_mem_cons.mp htexts
    rw [assignments, List.flatMap_cons, segments_assignment hgap hv, ← assignments, ih htexts,
      List.flatMap_cons]

/-! ## The literals of assignments -/

theorem literalsFrom_assignmentSegments (n : Nat) (parts : List Segment) :
    literalsFrom n (assignmentSegments s gap v ++ parts) =
      ⟨⟨n + width s.target, n + width s.target + width (quoted s v)⟩, v⟩ ::
        literalsFrom (n + width (s.target ++ (quoted s v ++ ';' :: gap))) parts := by
  have hsource : (Segment.literal [s.quote] (v.map fun c => ⟨s.spell c, [c]⟩) true).source =
      quoted s v := by
    simp [Segment.source, quoted, List.flatMap_map]
  have hvalue : (Segment.literal [s.quote] (v.map fun c => ⟨s.spell c, [c]⟩) true).value = v := by
    simp [Segment.value, List.flatMap_map]
  have hwidth : n + width (s.target ++ (quoted s v ++ ';' :: gap)) =
      n + width s.target + width (quoted s v) + width (';' :: gap) := by
    rw [width_append, width_append, Nat.add_assoc, Nat.add_assoc]
  rw [assignmentSegments, List.append_assoc, literalsFrom_code, List.cons_append, literalsFrom,
    hsource, hvalue, literalsFrom_code, hwidth]

theorem length_literalsFrom_assignments (n : Nat) (texts : List (List Char)) :
    (literalsFrom n (texts.flatMap (assignmentSegments s gap))).length = texts.length := by
  induction texts generalizing n with
  | nil => rfl
  | cons v texts ih =>
    rw [List.flatMap_cons, literalsFrom_assignmentSegments, List.length_cons, ih, List.length_cons]

/-- Statements that assign texts without line ends, whatever quotes, backslashes and openings of
comments are in them, have one literal for each text, in order, that reads as the text and covers
what was written for it. -/
theorem literals_assignments (s : Syntax) {gap : List Char} (hgap : ∀ c ∈ gap, isBlank c = true)
    {texts : List (List Char)} (htexts : ∀ v ∈ texts, '\n' ∉ v) :
    (Masked.of s (assignments s gap texts)).literals.length = texts.length ∧
    ∀ before v after, texts = before ++ v :: after →
      let start := width (assignments s gap before ++ s.target)
      let span : Span := ⟨start, start + width (quoted s v)⟩
      (Masked.of s (assignments s gap texts)).literals[before.length]? = some ⟨span, v⟩ ∧
        span.slice (assignments s gap texts) = quoted s v := by
  have hliterals : (Masked.of s (assignments s gap texts)).literals =
      literalsFrom 0 (texts.flatMap (assignmentSegments s gap)) :=
    congrArg (literalsFrom 0) (segments_assignments hgap htexts)
  constructor
  case left => rw [hliterals, length_literalsFrom_assignments]
  case right =>
    rintro before v after rfl start span
    have hbefore : (before.flatMap (assignmentSegments s gap)).flatMap Segment.source =
        assignments s gap before := by
      rw [← segments_assignments hgap fun v hv => htexts v (List.mem_append_left _ hv),
        source_segments]
    obtain ⟨behind, hparts⟩ : ∃ behind,
        literalsFrom 0 ((before ++ v :: after).flatMap (assignmentSegments s gap)) =
          literalsFrom 0 (before.flatMap (assignmentSegments s gap)) ++ ⟨span, v⟩ :: behind := by
      rw [List.flatMap_append, List.flatMap_cons, literalsFrom_append, hbefore,
        literalsFrom_assignmentSegments, Nat.zero_add, ← width_append]
      exact ⟨_, rfl⟩
    have htext : assignments s gap (before ++ v :: after) =
        assignments s gap before ++ s.target ++
          (quoted s v ++ (';' :: gap ++ assignments s gap after)) := by
      simp [assignments]
    constructor
    · rw [hliterals, hparts, List.getElem?_append_right
        (Nat.le_of_eq (length_literalsFrom_assignments _ _)), length_literalsFrom_assignments,
        Nat.sub_self, List.getElem?_cons_zero]
    · have hspan : span = ⟨start, width (assignments s gap before ++ s.target ++ quoted s v)⟩ :=
        congrArg (Span.mk start) (width_append _ _).symm
      rw [hspan, htext, Span.slice_width]

theorem literals_assignments_quotes :
    let texts := [[], ['"', '\\'], ['/', '*', ' ', 'é'], ['\'', '\'', '\x7b']]
    (∀ c ∈ ['\n'], isBlank c = true) ∧ (∀ v ∈ texts, '\n' ∉ v) ∧
      (Masked.of .java (assignments .java ['\n'] texts)).literals.length = 4 ∧
      (Masked.of .java (assignments .java ['\n'] texts)).literals[1]? =
        some ⟨⟨12, 18⟩, ['"', '\\']⟩ ∧
      (Masked.of .pascal (assignments .pascal ['\n'] texts)).literals[3]? =
        some ⟨⟨39, 46⟩, ['\'', '\'', '\x7b']⟩ := by
  intro texts
  have hgap : ∀ c ∈ ['\n'], isBlank c = true := by
    intro c hc
    rw [List.mem_singleton.mp hc]
    decide
  have htexts : ∀ v ∈ texts, '\n' ∉ v := by simp [texts]
  obtain ⟨hlength, hjava⟩ := literals_assignments .java hgap htexts
  obtain ⟨-, hpascal⟩ := literals_assignments .pascal hgap htexts
  exact ⟨hgap, htexts, hlength, (hjava [[]] _ _ rfl).1,
    (hpascal [[], ['"', '\\'], ['/', '*', ' ', 'é']] _ _ rfl).1⟩

/-! ## Escapes -/

/-- An odd number of backslashes at the end of a text escapes the character behind it. -/
def Escapes (before : List Char) : Prop :=
  (before.reverse.takeWhile (· == '\\')).length % 2 = 1

instance (before : List Char) : Decidable (Escapes before) := inferInstanceAs (Decidable (_ = _))

section Escapes

variable {before x y quote : List Char} {c : Char}

theorem not_escapes_nil : ¬Escapes [] := by decide

theorem escapes_concat_backslash : Escapes (before ++ ['\\']) ↔ ¬Escapes before := by
  rw [Escapes, Escapes, List.reverse_append, List.reverse_singleton, List.singleton_append,
    List.takeWhile_cons_of_pos (by rfl), List.length_cons]
  omega

theorem not_escapes_concat (hc : c ≠ '\\') (before : List Char) : ¬Escapes (before ++ [c]) := by
  rw [Escapes, List.reverse_append, List.reverse_singleton, List.singleton_append,
    List.takeWhile_cons_of_neg (by simpa using hc)]
  decide

/-- A quote without an escaped character stands behind `x`, at the start of `y`. -/
def Ends (quote x y : List Char) : Prop :=
  quote <+: y ∧ ∀ k < quote.length, ¬Escapes (x ++ y.take k)

/-- Behind its first character no quote is escaped. -/
theorem ends_iff (hne : quote ≠ []) (hquote : '\\' ∉ quote) :
    Ends quote x y ↔ quote <+: y ∧ ¬Escapes x := by
  refine and_congr_right ?_
  rintro ⟨z, rfl⟩
  constructor
  · intro h
    simpa using h 0 (List.length_pos_of_ne_nil hne)
  · intro hx k hk
    cases k with
    | zero => simpa using hx
    | succ k =>
      have hk' : k < quote.length := Nat.lt_of_succ_lt hk
      rw [List.take_append_of_le_length (Nat.le_of_lt hk), List.take_succ_eq_append_getElem hk',
        ← List.append_assoc]
      exact not_escapes_concat (ne_of_mem_of_not_mem (List.getElem_mem hk') hquote) _

end Escapes

/-! ## Where literals end -/

/-- Behind its quote, a literal runs on through `inner` to the first place at which `ends` holds; there
its quote closes it, and `rest` follows. Where it is not closed, `stops` holds of what follows. -/
structure RunsTo (quote tail inner : List Char) (closed : Bool) (rest : List Char)
    (ends : List Char → List Char → Prop) (stops : List Char → Prop) : Prop where
  tail_eq : tail = inner ++ ((bif closed then quote else []) ++ rest)
  first : ∀ x y, tail = x ++ y → ends x y → inner.length ≤ x.length
  closes : closed = true → ends inner (quote ++ rest)
  stops : closed = false → stops rest

/-- A literal that looks for its quote only, runs on to the first quote that is not escaped exactly
when the one that closes it is not. -/
theorem RunsTo.unescaped_iff {quote tail inner rest : List Char} {closed : Bool}
    {stops : List Char → Prop} (hne : quote ≠ []) (hquote : '\\' ∉ quote)
    (h : RunsTo quote tail inner closed rest (fun _ y => quote <+: y) stops) :
    RunsTo quote tail inner closed rest (Ends quote) stops ↔ (closed = true → ¬Escapes inner) := by
  constructor
  · intro hends hclosed
    exact ((ends_iff hne hquote).mp (hends.closes hclosed)).2
  · intro hinner
    constructor
    case tail_eq => exact h.tail_eq
    case first => exact fun x y hxy hends => h.first x y hxy hends.1
    case closes =>
      exact fun hclosed => (ends_iff hne hquote).mpr ⟨h.closes hclosed, hinner hclosed⟩
    case stops => exact h.stops

/-- A string or a character runs on to its first quote that is not escaped, or to the end of its
line. -/
structure LineLiteral (quote tail inner : List Char) (closed : Bool) (rest : List Char) : Prop where
  quote_eq : quote = ['\''] ∨ quote = ['"'] ∧ ¬['"', '"'] <+: tail
  lineEnd_notMem : '\n' ∉ inner
  runsTo : RunsTo quote tail inner closed rest (Ends quote) fun rest => ∀ c ∈ rest.head?, c = '\n'

/-- A text block runs on to the first three quotes in a row, or to the end of the text. They are the
first three of which none is escaped exactly when the first of them is not. -/
structure BlockLiteral (quote tail inner : List Char) (closed : Bool) (rest : List Char) : Prop where
  quote_eq : quote = ['"', '"', '"']
  runsTo : RunsTo quote tail inner closed rest (fun _ y => quote <+: y) (· = [])
  unescaped_iff : RunsTo quote tail inner closed rest (Ends quote) (· = []) ↔
    (closed = true → ¬Escapes inner)

namespace Body

def inner (b : Body) : List Char := b.pieces.flatMap (·.source)

@[simp] theorem inner_push (b : Body) (p : Piece) : (b.push p).inner = p.source ++ b.inner := rfl

@[simp] theorem closed_push (b : Body) (p : Piece) : (b.push p).closed = b.closed := rfl

/-- Every quote in a literal is escaped, and the one that closes it is not. -/
theorem escapes_inner_escaped {q : Char} (hq : q ≠ '\\') {seen t : List Char}
    (hseen : ¬Escapes seen) :
    (∀ x y, (escaped q t).inner = x ++ q :: y → Escapes (seen ++ x)) ∧
      ((escaped q t).closed = true → ¬Escapes (seen ++ (escaped q t).inner)) := by
  fun_induction escaped q t generalizing seen with
  | case1 => simp [inner]
  | case2 rest => simp [inner]
  | case3 => simp [inner, List.singleton_eq_append_iff, hq]
  | case4 rest => simp [inner, List.singleton_eq_append_iff, hq]
  | case5 c rest hc ih =>
    -- the backslash escapes `c`, and nothing behind it
    have hescaped : Escapes (seen ++ ['\\']) := escapes_concat_backslash.mpr hseen
    have hseen' : ¬Escapes (seen ++ ['\\', c]) := by
      rw [List.append_cons]
      by_cases hslash : c = '\\'
      · rw [hslash, escapes_concat_backslash]
        exact not_not.mpr hescaped
      · exact not_escapes_concat hslash _
    obtain ⟨hinner, hclosed⟩ := ih hseen'
    simp only [inner_push, closed_push, List.cons_append, List.nil_append]
    constructor
    · rintro x y h
      rcases x with _ | ⟨d, _ | ⟨e, x⟩⟩
      · exact absurd (List.cons.inj h).1.symm hq
      · obtain ⟨rfl, -⟩ := List.cons.inj h
        exact hescaped
      · obtain ⟨rfl, rfl, hrest⟩ : '\\' = d ∧ c = e ∧ (escaped q rest).inner = x ++ q :: y := by
          simpa using h
        simpa using hinner x y hrest
    · simpa using hclosed
  | case6 c rest _ _ _ heq => simpa [inner] using hseen
  | case7 c rest _ hlast _ hescape hne ih =>
    have hplain : c ≠ '\\' := by
      rintro rfl
      cases rest with
      | nil => exact hlast rfl rfl
      | cons d rest => exact hescape d rest rfl rfl
    obtain ⟨hinner, hclosed⟩ := ih (not_escapes_concat hplain seen)
    simp only [inner_push, closed_push, Piece.plain, List.singleton_append]
    constructor
    · rintro x y h
      rcases x with _ | ⟨d, x⟩
      · exact absurd (beq_iff_eq.mpr (List.cons.inj h).1) hne
      · obtain ⟨rfl, hrest⟩ := List.cons.inj h
        simpa using hinner x y hrest
    · simpa using hclosed

theorem lineEnd_of_rest_escaped {q : Char} {t : List Char} (h : (escaped q t).closed = false) :
    ∀ c ∈ (escaped q t).rest.head?, c = '\n' := by
  fun_induction escaped q t with
  | case5 c rest hc ih => exact ih h
  | case7 c rest _ _ _ _ _ ih => exact ih h
  | _ => simp_all

theorem lineEnd_notMem_inner_escaped (q : Char) (t : List Char) : '\n' ∉ (escaped q t).inner := by
  rw [inner, List.mem_flatMap]
  rintro ⟨p, hp, hline⟩
  exact lineEnd_notMem_escaped q t p hp hline

theorem runsTo_escaped {q : Char} (hq : q ≠ '\\') (tail : List Char) :
    RunsTo [q] tail (escaped q tail).inner (escaped q tail).closed (escaped q tail).rest
      (Ends [q]) (fun rest => ∀ c ∈ rest.head?, c = '\n') := by
  have hends {x y : List Char} : Ends [q] x y ↔ [q] <+: y ∧ ¬Escapes x :=
    ends_iff (List.cons_ne_nil _ _) (by simpa using hq.symm)
  have htail : tail = (escaped q tail).inner ++
      ((bif (escaped q tail).closed then [q] else []) ++ (escaped q tail).rest) := by
    rw [← List.append_assoc]
    exact (source_escaped q tail).symm
  obtain ⟨hinner, hclosed⟩ := escapes_inner_escaped (t := tail) hq not_escapes_nil
  constructor
  case tail_eq => exact htail
  case first =>
    rintro x y hxy hend
    obtain ⟨⟨z, rfl⟩, hx⟩ := hends.mp hend
    rcases List.append_eq_append_iff.mp (htail.symm.trans hxy) with ⟨w, rfl, -⟩ | ⟨w, hw, hz⟩
    · rw [List.length_append]
      exact Nat.le_add_right _ _
    · -- a quote that stands in the literal would be escaped
      cases w with
      | nil => exact Nat.le_of_eq (by rw [hw, List.append_nil])
      | cons d w =>
        obtain rfl : q = d := (List.cons.inj hz).1
        exact absurd (hinner x w hw) hx
  case closes =>
    intro h
    exact hends.mpr ⟨List.prefix_append _ _, by simpa using hclosed h⟩
  case stops => exact lineEnd_of_rest_escaped

/-! ### Text blocks -/

theorem rest_block {t : List Char} (h : (block t).closed = false) : (block t).rest = [] := by
  fun_induction block t with
  | case1 => rfl
  | case2 rest => simp at h
  | case3 c rest _ ih => exact ih h

theorem length_inner_block_le {t x y : List Char} (ht : t = x ++ y)
    (hy : ['"', '"', '"'] <+: y) : (block t).inner.length ≤ x.length := by
  fun_induction block t generalizing x with
  | case1 => simp [inner]
  | case2 rest => simp [inner]
  | case3 c rest hblock ih =>
    cases x with
    | nil =>
      obtain ⟨z, rfl⟩ := hy
      obtain ⟨hc, hrest⟩ := List.cons.inj ht
      exact (hblock z hc hrest).elim
    | cons d x =>
      obtain ⟨-, hrest⟩ := List.cons.inj ht
      rw [inner_push, Piece.plain, List.singleton_append, List.length_cons, List.length_cons]
      exact Nat.succ_le_succ (ih hrest)

theorem runsTo_block (tail : List Char) :
    RunsTo ['"', '"', '"'] tail (block tail).inner (block tail).closed (block tail).rest
      (fun _ y => ['"', '"', '"'] <+: y) (· = []) where
  tail_eq := by
    rw [← List.append_assoc]
    exact (source_block tail).symm
  first := fun _ _ => length_inner_block_le
  closes := fun _ => List.prefix_append _ _
  stops := rest_block

end Body

/-! ### Every literal -/

/-- What is behind the quote of a literal is that of a string, a character or a text block. -/
theorem OpensAt.runsOn {quote tail : List Char} {read : List Char → Body}
    (h : OpensAt .java quote read tail) :
    LineLiteral quote tail (read tail).inner (read tail).closed (read tail).rest ∨
      BlockLiteral quote tail (read tail).inner (read tail).closed (read tail).rest := by
  obtain ⟨hopens, hblock⟩ := h
  cases hopens with
  | @escaped q hq =>
    left
    have hslash : q ≠ '\\' := by rcases hq with rfl | rfl <;> decide
    refine ⟨?_, Body.lineEnd_notMem_inner_escaped q tail, Body.runsTo_escaped hslash tail⟩
    rcases hq with rfl | rfl
    · exact .inr ⟨rfl, hblock rfl⟩
    · exact .inl rfl
  | block =>
    right
    have hruns := Body.runsTo_block tail
    exact ⟨rfl, hruns, hruns.unescaped_iff (by simp) (by simp)⟩

/-- Every literal of a text in Java stands between two cuts. A string or a character runs on, behind
its quote, to the first quote that is not escaped, or to the end of its line. A text block runs on to
the first three quotes in a row, or to the end of the text; so it ends at the first three of which
none is escaped exactly when the first of those that close it is not. -/
theorem runsTo_of_mem_literals {t : List Char} {l : Literal}
    (h : l ∈ (Masked.of .java t).literals) :
    ∃ a quote tail inner closed rest,
      let written := quote ++ (inner ++ bif closed then quote else [])
      t = a ++ (quote ++ tail) ∧ l.span = ⟨width a, width (a ++ written)⟩ ∧
      IsCut .java a (quote ++ tail) ∧ IsCut .java (a ++ written) rest ∧
      (LineLiteral quote tail inner closed rest ∨ BlockLiteral quote tail inner closed rest) := by
  obtain ⟨before, q, more, pieces, closed, after, -, hparts, hstart, hstop⟩ :=
    Masked.exists_of_mem_literals h
  obtain ⟨read, tail, hopens, htail, hsegment, hrest⟩ := exists_opensAt_of_segments hparts
  generalize q :: more = quote at *
  have hwritten : (before ++ [Segment.literal quote pieces closed]).flatMap Segment.source =
      before.flatMap Segment.source ++
        (quote ++ ((read tail).inner ++ bif (read tail).closed then quote else [])) := by
    rw [← hsegment, List.flatMap_append, List.flatMap_singleton, source_segment]
    rfl
  have htext := source_segments .java t
  have hfront := IsCut.of_segments hparts
  have hbehind := IsCut.of_segments (hparts.trans (List.append_cons _ _ _))
  rw [hparts, List.flatMap_append, htail] at htext
  rw [htail] at hfront
  rw [hwritten, ← hrest] at hbehind
  refine ⟨before.flatMap Segment.source, quote, tail, (read tail).inner, (read tail).closed,
    (read tail).rest, htext.symm, ?_, hfront, hbehind, hopens.runsOn⟩
  rw [← hwritten, ← hstart, ← hstop]

/-- An escaped quote closes a text block, and what was left of it is read as code. -/
theorem runsTo_of_mem_literals_escapedQuote :
    let t := "\"\"\"a\\\"\"\"b\"\"\"".toList
    let l : Literal := ⟨⟨0, 8⟩, ['a', '\\']⟩
    l ∈ (Masked.of .java t).literals ∧
      (∃ a quote tail inner closed rest,
        let written := quote ++ (inner ++ bif closed then quote else [])
        t = a ++ (quote ++ tail) ∧ l.span = ⟨width a, width (a ++ written)⟩ ∧
        IsCut .java a (quote ++ tail) ∧ IsCut .java (a ++ written) rest ∧
        (LineLiteral quote tail inner closed rest ∨ BlockLiteral quote tail inner closed rest)) ∧
      ¬RunsTo ['"', '"', '"'] "a\\\"\"\"b\"\"\"".toList ['a', '\\'] true "b\"\"\"".toList
        (Ends ['"', '"', '"']) (· = []) := by
  intro t l
  have hsegments : segments .java t =
      [.literal ['"', '"', '"'] [.plain 'a', .plain '\\'] true, .code 'b',
        .literal ['"', '"', '"'] [] false] := by
    simp [t, segments, firstSegment, Body.block, Body.segment, Body.push]
  have hmem : l ∈ (Masked.of .java t).literals := by
    rw [Masked.of, hsegments]
    decide
  have hescaped : ¬Ends ['"', '"', '"'] ['a', '\\'] ("\"\"\"b\"\"\"".toList) := by
    intro hends
    exact absurd ((ends_iff (by simp) (by simp)).mp hends).2 (by decide)
  exact ⟨hmem, runsTo_of_mem_literals hmem, fun h => hescaped (h.closes rfl)⟩

end MigrationAudit.Source
