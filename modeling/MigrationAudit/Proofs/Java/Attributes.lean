import MigrationAudit.Proofs.Java.Queries
import MigrationAudit.Proofs.Java.Walks
import MigrationAudit.Proofs.Text.Ahead

/-!
# Values of attributes

An attribute that is assigned in the arguments of an annotation has the value of the first literal
behind its name, wherever that stands. The expression of the attribute itself reaches from its equals
sign to the next comma outside brackets. So the value is the attribute's own exactly when its
expression holds a literal at all; otherwise it is taken from what follows the comma.
-/

namespace MigrationAudit

open Text Source

/-! ## Literals in the code -/

/-- The span covers a part of a text, and the character `close` follows it. -/
def Text.Span.IsClosedBy (cs : List Char) (close : Char) (s : Span) : Prop :=
  ∃ a inside b, cs = a ++ (inside ++ close :: b) ∧ s.start = width a ∧
    s.stop = width a + width inside

namespace Source

/-- What is visible of a literal: its quotes, and white space for its contents. -/
theorem visible_of_mem_masked {s : Syntax} {t quote : List Char} {pieces : List Piece} {closed : Bool}
    (h : Segment.literal quote pieces closed ∈ segments s t) :
    ∀ c ∈ (Segment.literal quote pieces closed).masked, isBlank c = true ∨ c ∈ s.quotes := by
  obtain ⟨c, cs, hfirst⟩ := exists_firstSegment_of_mem h
  obtain ⟨read, inner, hopens, -⟩ := exists_opensAt hfirst
  have hquote : ∀ c ∈ quote, c ∈ s.quotes := by
    cases hopens.opens with
    | doubled => simp [Syntax.quotes]
    | escaped hq => rcases hq with rfl | rfl <;> simp [Syntax.quotes]
    | block => simp [Syntax.quotes]
  have hblank : ∀ d, ∀ c ∈ blank d, isBlank c = true := by
    intro d c hc
    unfold blank at hc
    split at hc
    · rw [List.mem_singleton.mp hc]
      rfl
    · rw [(List.mem_replicate.mp hc).2]
      rfl
  intro c hc
  rw [Segment.masked, List.mem_append, List.mem_append] at hc
  rcases hc with (hc | hc) | hc
  · exact .inr (hquote c hc)
  · obtain ⟨piece, -, hc⟩ := List.mem_flatMap.mp hc
    obtain ⟨d, -, hc⟩ := List.mem_flatMap.mp hc
    exact .inl (hblank d c hc)
  · cases closed
    · cases hc
    · exact .inr (hquote c hc)

/-- A literal cuts the code in three; what is visible of it starts with a quote. -/
theorem Masked.exists_code_of_mem_literals {s : Syntax} {t : List Char} {l : Literal}
    (h : l ∈ (Masked.of s t).literals) :
    ∃ a q inside b, (Masked.of s t).code = a ++ (q :: inside ++ b) ∧ l.span.start = width a ∧
      l.span.stop = width a + width (q :: inside) ∧ q ∈ s.quotes ∧
      ∀ c ∈ q :: inside, isBlank c = true ∨ c ∈ s.quotes := by
  obtain ⟨before, q, rest, pieces, closed, after, hq, hparts, hstart, hstop⟩ :=
    exists_of_mem_literals h
  have hmem : Segment.literal (q :: rest) pieces closed ∈ segments s t := by
    rw [hparts]
    exact List.mem_append_right _ List.mem_cons_self
  have hcode : (Masked.of s t).code = (segments s t).flatMap Segment.masked := rfl
  have hmasked : ∃ inside, (Segment.literal (q :: rest) pieces closed).masked = q :: inside :=
    ⟨_, by rw [Segment.masked, List.cons_append, List.cons_append]⟩
  obtain ⟨inside, hinside⟩ := hmasked
  have hwidth : width (before.flatMap Segment.masked) = width (before.flatMap Segment.source) :=
    (masks_flatMap before).width_eq
  refine ⟨before.flatMap Segment.masked, q, inside, after.flatMap Segment.masked, ?_, ?_, ?_, hq, ?_⟩
  · rw [hcode, hparts, List.flatMap_append, List.flatMap_cons, hinside]
  · rw [hstart, hwidth]
  · rw [hstop, List.flatMap_append, List.flatMap_singleton, width_append, hwidth, ← hinside,
      (Segment.masks _).width_eq]
  · rw [← hinside]
    exact visible_of_mem_masked hmem

/-- A quote of either language is no white space, continues no word, and is no other mark. -/
theorem ne_of_mem_quotes {s : Syntax} {q : Char} (hq : q ∈ s.quotes) :
    isBlank q = false ∧ isIdent q = false ∧ q ≠ '=' ∧ q ≠ ',' ∧ q ≠ ')' := by
  cases s <;> simp only [Syntax.quotes, List.mem_cons, List.not_mem_nil, or_false] at hq
  · subst hq
    decide +kernel
  · rcases hq with rfl | rfl <;> decide +kernel

end Source

/-! ## Arguments in parentheses -/

namespace Java

variable {w : Walk} {code : List Char} {source : Masked} {args : Span} {keys : List String}

def ArgumentsClosed (code : List Char) (annotations : List Annotation) : Prop :=
  ∀ a ∈ annotations, ∀ args ∈ a.args, args.IsClosedBy code ')'

theorem isClosedBy_of_searchClosing {paren close : Cursor} (hparen : paren.StandsIn code)
    (hopen : paren.after.head? = some '(') (hclose : searchClosing paren = some close) :
    (Span.mk paren.next.offset close.offset).IsClosedBy code ')' := by
  obtain ⟨⟨inside, rest⟩, hsplit, rfl⟩ := Option.map_eq_some_iff.mp hclose
  obtain ⟨beyond, hcode, hwidth⟩ := hparen.exists_eq
  have hafter := append_of_splitAtClose? hsplit
  cases inside with
  | nil =>
    rw [← hafter] at hopen
    simp at hopen
  | cons a inside =>
    obtain rfl : a = '(' := by
      rw [← hafter] at hopen
      simpa using hopen
    refine ⟨paren.before.reverse ++ ['('], inside, rest ++ beyond, ?_, ?_, ?_⟩
    · rw [hcode, ← hafter]
      simp
    · simp [Cursor.next, ← hafter, hwidth]
    · simp [width, hwidth, Nat.add_assoc]

theorem argumentsClosed_of_readAnnotation? {c d : Cursor} {a : Annotation} (hc : c.StandsIn code)
    (h : readAnnotation? searchClosing c = some (a, d)) :
    ∀ args ∈ a.args, args.IsClosedBy code ')' := by
  have hparen : (pastDotted c.next.skipBlank).skipBlank.StandsIn code :=
    hc.of_leads ((leads_annotationName c).trans (Cursor.leads_skipWhile ..))
  unfold readAnnotation? at h
  simp only at h
  split at h
  · simp at h
  · split at h
    · next hopen =>
      split at h
      · next close hclose =>
        obtain ⟨rfl, -⟩ := Prod.mk.inj (Option.some.inj h)
        rintro args ⟨⟩
        exact isClosedBy_of_searchClosing hparen (by rw [hopen]; rfl) hclose
      · obtain ⟨rfl, -⟩ := Prod.mk.inj (Option.some.inj h)
        simp
    · obtain ⟨rfl, -⟩ := Prod.mk.inj (Option.some.inj h)
      simp

theorem argumentsClosed_readPrefixWith (fuel : Nat) {c : Cursor} (hc : c.StandsIn code) :
    ArgumentsClosed code (readPrefixWith searchClosing fuel c).1.annotations := by
  induction fuel generalizing c with
  | zero => simp [readPrefixWith, ArgumentsClosed]
  | succ fuel ih =>
    have hblank : c.skipBlank.StandsIn code := hc.of_leads (Cursor.leads_skipWhile ..)
    unfold readPrefixWith
    simp only
    split
    · split
      · next a behind hread =>
        exact List.forall_mem_cons.mpr ⟨argumentsClosed_of_readAnnotation? hblank hread,
          ih (hblank.of_leads (leads_readAnnotation? leads_searchClosing hread))⟩
      · simp [ArgumentsClosed]
    · split
      · exact ih (hblank.of_leads (Cursor.leads_skipWhile ..))
      · simp [ArgumentsClosed]

theorem annotations_of_readType {p : Prefix} {kind : TypeKind} {topLevel : Bool}
    {c behind d : Cursor} {t : OpenType} (h : readType w p kind topLevel c behind = .type t d) :
    t.parsed.annotations = p.annotations := by
  unfold readType at h
  split at h
  · cases h
  · simp only at h
    split at h <;> cases h
    rfl

theorem annotations_of_nextItem {owner : Option Owner} {c behind : Cursor} {t : OpenType}
    (h : nextItem w owner c = .type t behind) :
    t.parsed.annotations = (readPrefix c).1.annotations := by
  obtain ⟨kind, topLevel, keyword, d, -, -, hread⟩ := nextItem_eq_type h
  exact annotations_of_readType hread

/-- What the annotations of types and methods have as arguments ends at a closing parenthesis. -/
theorem argumentsClosed_readScope (w : Walk) (owner : Option Owner) (depth : Nat) {c : Cursor}
    (hc : c.StandsIn code) :
    (readScope w owner depth c).Has
      { method := fun m => ArgumentsClosed code m.annotations
        type := fun t => ArgumentsClosed code t.annotations } := by
  refine has_readScope (fun owner c hc => ?_) owner depth hc
  have hprefix : ArgumentsClosed code (readPrefix c).1.annotations :=
    argumentsClosed_readPrefixWith _ hc
  cases hitem : nextItem w owner c with
  | nothing => trivial
  | skipped behind => trivial
  | members s behind =>
    obtain ⟨o, -, hread⟩ := nextItem_eq_members hitem
    have hfits := fits_nextItem w owner c
    rw [hitem] at hfits
    exact {
      fields := fun _ _ => trivial
      methods := fun m hm =>
        show ArgumentsClosed code m.annotations from
          (annotations_of_readMember hread m hm).symm ▸ hprefix
      types := by rw [hfits.2.1]; simp
      diagnostics := fun _ _ => trivial }
  | type t behind =>
    exact {
      type := fun _ _ =>
        show ArgumentsClosed code t.parsed.annotations from
          (annotations_of_nextItem hitem).symm ▸ hprefix
      fields := fun _ _ => trivial
      unclosed := fun _ _ => trivial
      tooDeep := trivial }

/-! ## Expressions of attributes -/

/-- The expression that is assigned to a word in an argument list: from behind its equals sign to the
next comma outside brackets, or to the end of the list. -/
def assignedExpression (source : Masked) (args : Span) (w : Word) : Span :=
  let sign := w.behind.skipBlank.next
  let depth := (textBetween (.within source.code args.start args.stop) sign).foldl depthBehind 0
  ⟨sign.offset, sign.offset + width (splitTop (· == ',') depth sign.after).1⟩

/-- The text around an assigned word: only the word, white space and the equals sign stand between
its start and its expression, and a comma or the closing parenthesis stands behind that. -/
structure IsAssigned (source : Masked) (args : Span) (w : Word) : Prop where
  front : ∃ a m b, source.code = a ++ (m ++ b) ∧ w.start = width a ∧
    (assignedExpression source args w).start = width a + width m ∧
    ∀ c ∈ m, isIdent c = true ∨ isBlank c = true ∨ c = '='
  behind : ∃ a c b, source.code = a ++ c :: b ∧
    (assignedExpression source args w).stop = width a ∧ (c = ',' ∨ c = ')')
  stop_le : (assignedExpression source args w).stop ≤ args.stop
  argsEnd : ∃ a b, source.code = a ++ ')' :: b ∧ args.stop = width a

theorem head?_splitTop (p : Char → Bool) (depth : Nat) (cs : List Char) :
    ∀ c ∈ (splitTop p depth cs).2.head?, p c = true := by
  fun_induction splitTop p depth cs with
  | case1 => simp
  | case2 depth c cs h =>
    rintro _ ⟨⟩
    simpa using (Bool.and_eq_true_iff.mp h).2
  | case3 depth c cs h ih => exact ih

/-- A cursor ahead in an argument list cuts the code, and the closing parenthesis ends what is ahead
of it. -/
theorem code_eq_of_leads (hclosed : args.IsClosedBy source.code ')') {d : Cursor}
    (hd : (Cursor.within source.code args.start args.stop).Leads d) :
    ∃ b, source.code = d.before.reverse ++ (d.after ++ ')' :: b) ∧
      width d.before.reverse = d.offset ∧ d.offset + width d.after = args.stop := by
  obtain ⟨a, inside, b, hcode, hstart, hstop⟩ := hclosed
  have hlist : Cursor.within source.code args.start args.stop = ⟨width a, a.reverse, inside⟩ := by
    rw [hcode, hstart, hstop, Cursor.within_eq]
  rw [hlist] at hd
  have hstands : (Cursor.mk (width a) a.reverse inside).StandsIn source.code :=
    ⟨(width_reverse a).symm, ⟨')' :: b, by simp [Cursor.text, hcode]⟩⟩
  have htext := hd.text_eq
  simp only [Cursor.text, List.reverse_reverse] at htext
  refine ⟨b, ?_, ?_, ?_⟩
  · rw [hcode, ← List.append_assoc, ← htext, List.append_assoc]
  · rw [width_reverse, (hstands.of_leads hd).offset_eq]
  · rw [hstop]
    exact Cursor.offset_add_width_after hd

/-- The text between an assigned word and its expression. -/
theorem exists_sign_of_assignedKey? {w : Word} (h : assignedKey? source args keys = some w) :
    ∃ gap rest, w.behind.after = gap ++ '=' :: rest ∧ (∀ c ∈ gap, isBlank c = true) ∧
      w.behind.skipBlank.next = w.behind.advance (gap ++ ['=']) rest := by
  have hsign := List.find?_some h
  rw [Bool.and_eq_true_iff] at hsign
  have hhead : (w.behind.after.dropWhile isBlank).head? = some '=' := by
    simpa [trimStart] using hsign.2
  obtain ⟨rest, hrest⟩ := List.head?_eq_some_iff.mp hhead
  have hsplit := List.takeWhile_append_dropWhile (p := isBlank) (l := w.behind.after)
  refine ⟨w.behind.after.takeWhile isBlank, rest, by rw [← hrest, hsplit],
    fun c hc => List.mem_takeWhile_imp hc, ?_⟩
  rw [← Cursor.advance_advance]
  simp only [Cursor.next, Cursor.skipBlank, Cursor.skipWhile, Cursor.after_advance, hrest]
  rfl

theorem isAssigned_of_assignedKey? {w : Word} (hclosed : args.IsClosedBy source.code ')')
    (h : assignedKey? source args keys = some w) : IsAssigned source args w := by
  have hmem := List.mem_of_find?_eq_some h
  have hfirst := (Cursor.leadsWhole_of_mem_words hmem).1.leads
  have hwhole := Cursor.isWhole_of_mem_words hmem
  obtain ⟨gap, rest, hgap, hblank, hsign⟩ := exists_sign_of_assignedKey? h
  have hbehind : w.first.Leads w.behind := ⟨w.text, hwhole.after_eq, hwhole.behind_eq⟩
  have hrest : w.behind.Leads w.behind.skipBlank.next :=
    (Cursor.leads_skipWhile ..).trans (Cursor.leads_next _)
  obtain ⟨b, hcode, hwidth, hlimit⟩ := code_eq_of_leads hclosed hfirst
  obtain ⟨b', hcode', hwidth', hlimit'⟩ :=
    code_eq_of_leads hclosed ((hfirst.trans hbehind).trans hrest)
  obtain ⟨a, inside, after, hargs, hstart, hstop⟩ := hclosed
  have hends := splitTop_append (· == ',')
    ((textBetween (.within source.code args.start args.stop) w.behind.skipBlank.next).foldl
      depthBehind 0) w.behind.skipBlank.next.after
  have hmark := head?_splitTop (· == ',')
    ((textBetween (.within source.code args.start args.stop) w.behind.skipBlank.next).foldl
      depthBehind 0) w.behind.skipBlank.next.after
  have hexpression : assignedExpression source args w = ⟨w.behind.skipBlank.next.offset, _⟩ := rfl
  generalize splitTop _ _ w.behind.skipBlank.next.after = parts at hends hmark hexpression
  rw [← hends, width_append] at hlimit'
  refine ⟨⟨w.first.before.reverse, w.text ++ (gap ++ ['=']), rest ++ ')' :: b, ?_, hwidth.symm, ?_,
    ?_⟩, ?_, ?_, ⟨a ++ inside, after, by simp [hargs], by simp [hstop]⟩⟩
  · rw [hcode, hwhole.after_eq, hgap]
    simp
  · rw [hexpression, hwidth, hsign, Cursor.offset_advance, hwhole.behind_eq, Cursor.offset_advance]
    simp [Nat.add_assoc]
  · intro c hc
    simp only [List.mem_append, List.mem_singleton] at hc
    rcases hc with hc | hc | hc
    · exact .inl (hwhole.isIdent c hc)
    · exact .inr (.inl (hblank c hc))
    · exact .inr (.inr hc)
  · rw [hexpression]
    rw [← hends] at hcode'
    -- the expression ends at a comma, or else at the parenthesis that closes the arguments
    cases hparts : parts.2 with
    | nil =>
      refine ⟨w.behind.skipBlank.next.before.reverse ++ parts.1, ')', b', ?_, ?_, .inr rfl⟩
      · rw [hcode', hparts]
        simp
      · rw [width_append, hwidth']
    | cons c after =>
      refine ⟨w.behind.skipBlank.next.before.reverse ++ parts.1, c, after ++ ')' :: b', ?_, ?_, ?_⟩
      · rw [hcode', hparts]
        simp
      · rw [width_append, hwidth']
      · exact .inl (by simpa [hparts] using hmark)
  · rw [hexpression]
    show w.behind.skipBlank.next.offset + width parts.1 ≤ args.stop
    omega

theorem mem_of_width_lt {cs a b x m y : List Char} {c : Char} (h : cs = a ++ c :: b)
    (h' : cs = x ++ (m ++ y)) (hle : width x ≤ width a) (hlt : width a < width x + width m) :
    c ∈ m := by
  obtain ⟨k, rfl⟩ := prefix_of_width_le (h'.symm.trans h) hle
  have hrest : k ++ c :: b = m ++ y := by
    rw [h, List.append_assoc] at h'
    exact List.append_cancel_left h'
  obtain ⟨l, rfl⟩ : k <+: m := prefix_of_width_le hrest (by rw [width_append] at hlt; omega)
  cases l with
  | nil => simp at hlt
  | cons d l =>
    rw [List.append_assoc, List.append_cancel_left_eq] at hrest
    obtain ⟨rfl, -⟩ := List.cons_eq_cons.mp hrest
    simp

variable {t : List Char} {w : Word} {l : Literal}

/-- A comma or a parenthesis in the code belongs to no literal. -/
theorem stop_le_or_lt_start {s : Syntax} (hl : l ∈ (Masked.of s t).literals) {a b : List Char}
    {c : Char} (hcode : (Masked.of s t).code = a ++ c :: b) (hc : c = ',' ∨ c = ')') :
    l.span.stop ≤ width a ∨ width a < l.span.start := by
  obtain ⟨front, q, inside, behind, hliteral, hstart, hstop, -, hvisible⟩ :=
    Masked.exists_code_of_mem_literals hl
  by_contra hnot
  rw [not_or, Nat.not_le, Nat.not_lt, hstart, hstop] at hnot
  have hmem : c ∈ q :: inside := mem_of_width_lt hcode hliteral hnot.2 hnot.1
  rcases hvisible c hmem with hblank | hquote
  · rcases hc with rfl | rfl <;> exact absurd hblank (by decide)
  · obtain ⟨-, -, -, hcomma, hparen⟩ := ne_of_mem_quotes hquote
    exact hc.elim hcomma hparen

namespace IsAssigned

/-- No literal starts between an assigned word and its expression. -/
theorem start_le (h : IsAssigned (.of .java t) args w) (hl : l ∈ (Masked.of .java t).literals)
    (hle : w.start ≤ l.span.start) :
    (assignedExpression (.of .java t) args w).start ≤ l.span.start := by
  obtain ⟨a, m, b, hcode, hw, hstart, hm⟩ := h.front
  obtain ⟨front, q, inside, behind, hliteral, hl, -, hq, -⟩ :=
    Masked.exists_code_of_mem_literals hl
  by_contra hnot
  rw [Nat.not_le, hstart, hl] at hnot
  rw [hw, hl] at hle
  obtain ⟨hblank, hident, hequals, -⟩ := ne_of_mem_quotes hq
  rcases hm q (mem_of_width_lt hliteral hcode hle hnot) with h | h | h
  · simp [h] at hident
  · simp [h] at hblank
  · exact hequals h

theorem word_le (h : IsAssigned source args w) :
    w.start ≤ (assignedExpression source args w).start := by
  obtain ⟨a, m, b, -, hw, hstart, -⟩ := h.front
  omega

theorem encloses_or_lt (h : IsAssigned (.of .java t) args w)
    (hl : l ∈ (Masked.of .java t).literals) (hle : w.start ≤ l.span.start) :
    (assignedExpression (.of .java t) args w).Encloses l.span ∨
      (assignedExpression (.of .java t) args w).stop < l.span.start := by
  obtain ⟨a, c, b, hcode, hstop, hc⟩ := h.behind
  rw [hstop]
  refine (stop_le_or_lt_start hl hcode hc).imp_left fun hle' => ⟨h.start_le hl hle, ?_⟩
  rwa [hstop]

/-- The literals from an assigned word on are those of the arguments from its expression on. -/
theorem mem_literalsIn_iff (h : IsAssigned (.of .java t) args w) :
    l ∈ (Masked.of .java t).literalsIn ⟨w.start, args.stop⟩ ↔
      l ∈ (Masked.of .java t).literals ∧
        (Span.mk (assignedExpression (.of .java t) args w).start args.stop).Encloses l.span := by
  obtain ⟨a, b, hcode, hstop⟩ := h.argsEnd
  rw [Masked.mem_literalsIn]
  refine and_congr_right fun hl => ?_
  have hlt := Masked.start_lt_stop_of_mem_literals hl
  simp only [Span.contains, decide_eq_true_eq, Span.Encloses]
  constructor
  · rintro ⟨hle, hbefore⟩
    refine ⟨h.start_le hl hle, ?_⟩
    rcases stop_le_or_lt_start hl hcode (.inr rfl) with hin | hout
    · omega
    · omega
  · rintro ⟨hle, hin⟩
    exact ⟨h.word_le.trans hle, by omega⟩

end IsAssigned

/-- How an attribute that is assigned has its value: from the first literal behind its equals sign
that the arguments hold. It is the attribute's own exactly when its expression holds a literal;
otherwise it stands behind the expression. -/
structure ReadsAssigned (source : Masked) (a : Annotation) (keys : List String) (args : Span)
    (w : Word) : Prop where
  value_eq : attribute? source a keys = (attributeLiteral? source a keys).map (·.value)
  first : ∀ l ∈ attributeLiteral? source a keys, l ∈ source.literals ∧
    (Span.mk (assignedExpression source args w).start args.stop).Encloses l.span ∧
    ∀ k ∈ source.literals,
      (Span.mk (assignedExpression source args w).start args.stop).Encloses k.span →
        l.span.start ≤ k.span.start
  isNone_iff : attributeLiteral? source a keys = none ↔ ∀ k ∈ source.literals,
    ¬ (Span.mk (assignedExpression source args w).start args.stop).Encloses k.span
  own_iff : ∀ l ∈ attributeLiteral? source a keys,
    (assignedExpression source args w).Encloses l.span ↔
      ∃ k ∈ source.literals, (assignedExpression source args w).Encloses k.span
  foreign : ∀ l ∈ attributeLiteral? source a keys,
    ¬ (assignedExpression source args w).Encloses l.span →
      (assignedExpression source args w).stop < l.span.start

theorem readsAssigned_of_isAssigned {a : Annotation} (hargs : a.args = some args)
    (hw : assignedKey? (.of .java t) args keys = some w) (h : IsAssigned (.of .java t) args w) :
    ReadsAssigned (.of .java t) a keys args w := by
  have hliteral : attributeLiteral? (.of .java t) a keys =
      ((Masked.of .java t).literalsIn ⟨w.start, args.stop⟩).head? := by
    rw [attributeLiteral?, hargs, Option.bind_some, hw]
  have hordered := Masked.ordered_of .java t
  have hfirst : ∀ l ∈ attributeLiteral? (.of .java t) a keys, l ∈ (Masked.of .java t).literals ∧
      (Span.mk (assignedExpression (.of .java t) args w).start args.stop).Encloses l.span ∧
      ∀ k ∈ (Masked.of .java t).literals,
        (Span.mk (assignedExpression (.of .java t) args w).start args.stop).Encloses k.span →
          l.span.start ≤ k.span.start := by
    intro l hl
    rw [hliteral] at hl
    have hmem := List.mem_of_head? hl
    have hall := (hordered.head?_literalsIn_iff hmem).mp hl
    obtain ⟨hin, hencloses⟩ := h.mem_literalsIn_iff.mp hmem
    exact ⟨hin, hencloses, fun k hk hrest => hall k (h.mem_literalsIn_iff.mpr ⟨hk, hrest⟩)⟩
  have hcases : ∀ l ∈ attributeLiteral? (.of .java t) a keys,
      (assignedExpression (.of .java t) args w).Encloses l.span ∨
        (assignedExpression (.of .java t) args w).stop < l.span.start := fun l hl =>
    h.encloses_or_lt (hfirst l hl).1 (h.word_le.trans (hfirst l hl).2.1.1)
  refine ⟨attribute?_eq .., hfirst, ?_, fun l hl => ⟨fun hown => ⟨l, (hfirst l hl).1, hown⟩, ?_⟩,
    fun l hl hnot => (hcases l hl).resolve_left hnot⟩
  · rw [hliteral, List.head?_eq_none_iff, List.eq_nil_iff_forall_not_mem]
    exact ⟨fun hnone k hk hrest => hnone k (h.mem_literalsIn_iff.mpr ⟨hk, hrest⟩),
      fun hnone k hk => hnone k (h.mem_literalsIn_iff.mp hk).1 (h.mem_literalsIn_iff.mp hk).2⟩
  · rintro ⟨k, hk, hown⟩
    have hle := (hfirst l hl).2.2 k hk ⟨hown.1, hown.2.trans h.stop_le⟩
    have hlt := Masked.start_lt_stop_of_mem_literals hk
    refine (hcases l hl).resolve_right fun hbehind => ?_
    have := hown.2
    omega

def AttributesReadAssigned (source : Masked) (annotations : List Annotation) : Prop :=
  ∀ a ∈ annotations, ∀ keys : List String, ∀ args ∈ a.args, ∀ w ∈ assignedKey? source args keys,
    ReadsAssigned source a keys args w

theorem ArgumentsClosed.attributesReadAssigned {annotations : List Annotation}
    (h : ArgumentsClosed (Masked.of .java t).code annotations) :
    AttributesReadAssigned (.of .java t) annotations := fun a ha _ args hargs _ hw =>
  readsAssigned_of_isAssigned hargs hw (isAssigned_of_assignedKey? (h a ha args hargs) hw)

/-- An attribute that is assigned in an annotation of a type or a method has its value from its own
expression exactly when a literal stands there; otherwise the value is that of the first literal
behind the comma, if one is left in the arguments. -/
theorem attributes_readTypes (path text : String) (maxDepth : Nat) {t : ParsedType}
    (ht : t ∈ (readTypes (.of .java text.toList) path maxDepth).1) :
    AttributesReadAssigned (.of .java text.toList) t.annotations ∧
      ∀ m ∈ t.methods, AttributesReadAssigned (.of .java text.toList) m.annotations := by
  obtain ⟨htype, -, hmethods⟩ := (argumentsClosed_readScope
    ⟨.of .java text.toList, path, max 1 maxDepth⟩ none 0 (Cursor.standsIn_ofText _)).types t ht
  exact ⟨ArgumentsClosed.attributesReadAssigned htype, fun m hm =>
    ArgumentsClosed.attributesReadAssigned (hmethods m hm)⟩

def clientText : String :=
  "@Table(name = Tables.CLIENTS, schema = \"CRM\")\nclass Client \x7b\n\x7d\n"

/-- The class takes its schema for its table. -/
theorem attributes_readTypes_client :
    ∃ t ∈ (readTypes (.of .java clientText.toList) "Client.java" 64).1, ∃ a ∈ t.annotations,
      ∃ args ∈ a.args, ∃ w ∈ assignedKey? (.of .java clientText.toList) args ["name"],
        ReadsAssigned (.of .java clientText.toList) a ["name"] args w ∧
          assignedExpression (.of .java clientText.toList) args w = ⟨13, 28⟩ ∧
          attributeLiteral? (.of .java clientText.toList) a ["name"] =
            some ⟨⟨39, 44⟩, "CRM".toList⟩ ∧
          tableName? (.of .java clientText.toList) t = some "CRM" := by
  have htypes : ((readTypes (.of .java clientText.toList) "Client.java" 64).1.map fun t =>
      (t.annotations, tableName? (.of .java clientText.toList) t)) =
        [([⟨"Table", some ⟨7, 44⟩⟩], some "CRM")] := by
    decide +kernel
  have hexpression : (assignedKey? (.of .java clientText.toList) ⟨7, 44⟩ ["name"]).map
      (assignedExpression (.of .java clientText.toList) ⟨7, 44⟩) = some ⟨13, 28⟩ := by
    decide +kernel
  obtain ⟨t, ht, htable⟩ := List.mem_map.mp (htypes.symm ▸ List.mem_singleton_self _)
  obtain ⟨hannotations, htable⟩ := Prod.mk.inj htable
  obtain ⟨w, hw, hexpression⟩ := Option.map_eq_some_iff.mp hexpression
  have ha : ⟨"Table", some ⟨7, 44⟩⟩ ∈ t.annotations := by simp [hannotations]
  exact ⟨t, ht, _, ha, _, rfl, w, hw,
    (attributes_readTypes "Client.java" clientText 64 ht).1 _ ha ["name"] _ rfl w hw, hexpression,
    by decide +kernel, htable⟩

end Java

end MigrationAudit
