import MigrationAudit.Proofs.Source.Mask

/-!
# Masking again changes nothing

The masked text is cut like the text itself: a character of code stays one, a comment turns into
blank characters of code, and a literal into a literal of the same length with nothing in it. So
masking it once more gives the same code and finds the literals in the same places.
-/

namespace MigrationAudit.Source

open Text

/-! ## Blank text -/

/-- A character that masks have in place of what they hide, or a line end. -/
def IsHidden (c : Char) : Prop := c = ' ' ∨ c = '\n'

theorem isHidden_of_mem_flatMap_blank {t : List Char} {c : Char} (h : c ∈ t.flatMap blank) :
    IsHidden c := by
  obtain ⟨d, _, hc⟩ := List.mem_flatMap.mp h
  unfold blank at hc
  split at hc
  · exact .inr (List.mem_singleton.mp hc)
  · exact .inl (List.eq_of_mem_replicate hc)

theorem blank_of_isHidden {c : Char} (h : IsHidden c) : blank c = [c] := by
  rcases h with rfl | rfl <;> rfl

theorem flatMap_blank_eq_self {t : List Char} (h : ∀ c ∈ t, IsHidden c) : t.flatMap blank = t := by
  induction t with
  | nil => rfl
  | cons c t ih =>
    rw [List.forall_mem_cons] at h
    rw [List.flatMap_cons, blank_of_isHidden h.1, ih h.2]
    rfl

theorem head?_ne_of_isHidden {s : Syntax} {c : Char} (h : IsHidden c) :
    ∀ o ∈ s.openers, o.head? ≠ some c := by
  rcases h with rfl | rfl <;> cases s <;> decide

namespace Segment

/-- What the mask of a segment is cut into. -/
def rescanned : Segment → List Segment
  | .code c => [.code c]
  | .comment text => (text.flatMap blank).map .code
  | .literal quote pieces closed =>
    [.literal quote ((pieces.flatMap (·.source.flatMap blank)).map .plain) closed]

end Segment

/-! ## Literals -/

namespace Masks

variable {m t : List Char}

theorem eq_nil (h : Masks m []) : m = [] := by
  cases h
  rfl

theorem exists_of_lineEnd (h : Masks m ('\n' :: t)) : ∃ m', m = '\n' :: m' := by
  cases h with
  | keep c hm => exact ⟨_, rfl⟩
  | hide hc hm => exact absurd rfl hc

theorem not_cons (h : Masks m t) {q : Char} (hq : q ≠ ' ') (ht : ∀ rest, t ≠ q :: rest)
    (m' : List Char) : m ≠ q :: m' := by
  rintro rfl
  have hvisible : ' ' ∉ [q] := by simpa using hq.symm
  obtain ⟨rest, hrest⟩ := h.prefix_of_visible (p := [q]) (by simp) hvisible
  exact ht rest hrest.symm

end Masks

namespace Body

def prepend (ps : List Piece) (b : Body) : Body := { b with pieces := ps ++ b.pieces }

/-- What hides the pieces of a literal. -/
def hidden (b : Body) : List Char := b.pieces.flatMap (·.source.flatMap blank)

theorem push_eq_prepend (b : Body) (p : Piece) : b.push p = b.prepend [p] := rfl

theorem prepend_prepend (ps qs : List Piece) (b : Body) :
    (b.prepend qs).prepend ps = b.prepend (ps ++ qs) := by
  simp [prepend]

end Body

/-- What a reader takes one by one, each as one piece, comes in front of what it reads then. -/
theorem read_flatMap {read : List Char → Body} {spell : Char → List Char} {t : List Char}
    (h : ∀ c ∈ t, ∀ m, read (spell c ++ m) = (read m).push ⟨spell c, [c]⟩) (m : List Char) :
    read (t.flatMap spell ++ m) = (read m).prepend (t.map fun c => ⟨spell c, [c]⟩) := by
  induction t with
  | nil => rfl
  | cons c t ih =>
    rw [List.forall_mem_cons] at h
    rw [List.flatMap_cons, List.append_assoc, h.1, ih h.2, Body.push_eq_prepend,
      Body.prepend_prepend]
    rfl

theorem read_append {read : List Char → Body} {t : List Char}
    (h : ∀ c ∈ t, ∀ m, read (c :: m) = (read m).push (.plain c)) (m : List Char) :
    read (t ++ m) = (read m).prepend (t.map .plain) := by
  have hread : read (t.flatMap (fun c => [c]) ++ m) = (read m).prepend (t.map .plain) :=
    read_flatMap h m
  rwa [List.flatMap_singleton'] at hread

namespace Body

theorem eq_space_of_mem_hidden {b : Body} (h : ∀ p ∈ b.pieces, '\n' ∉ p.source) {c : Char}
    (hc : c ∈ b.hidden) : c = ' ' := by
  obtain ⟨p, hp, hc⟩ := List.mem_flatMap.mp hc
  obtain ⟨d, hd, hc⟩ := List.mem_flatMap.mp hc
  unfold blank at hc
  split at hc
  · rename_i heq
    rw [beq_iff_eq.mp heq] at hd
    exact absurd hd (h p hp)
  · exact List.eq_of_mem_replicate hc

theorem lineEnd_notMem_doubled (t : List Char) : ∀ p ∈ (doubled t).pieces, '\n' ∉ p.source := by
  fun_induction doubled t with
  | case3 rest ih => exact List.forall_mem_cons.mpr ⟨by decide, ih⟩
  | case5 c rest hc _ _ ih =>
    exact List.forall_mem_cons.mpr ⟨fun h => hc (List.mem_singleton.mp h).symm, ih⟩
  | _ => simp

theorem lineEnd_notMem_escaped (q : Char) (t : List Char) :
    ∀ p ∈ (escaped q t).pieces, '\n' ∉ p.source := by
  fun_induction escaped q t with
  | case5 c rest hc ih =>
    refine List.forall_mem_cons.mpr ⟨?_, ih⟩
    simpa using Ne.symm hc
  | case7 c rest hc _ _ _ _ ih =>
    exact List.forall_mem_cons.mpr ⟨fun h => hc (List.mem_singleton.mp h).symm, ih⟩
  | _ => simp

theorem doubled_plain {c : Char} (hline : c ≠ '\n') (hquote : c ≠ '\'') (m : List Char) :
    doubled (c :: m) = (doubled m).push (.plain c) := by
  rw [doubled] <;> simp [hline, hquote]

theorem escaped_plain {q c : Char} (hline : c ≠ '\n') (hescape : c ≠ '\\') (hquote : c ≠ q)
    (m : List Char) : escaped q (c :: m) = (escaped q m).push (.plain c) := by
  rw [escaped, if_neg] <;> simp [hline, hescape, hquote]

theorem block_hidden {c : Char} (hc : IsHidden c) (m : List Char) :
    block (c :: m) = (block m).push (.plain c) := by
  rcases hc with rfl | rfl <;> rw [block] <;> simp

theorem doubled_end {t m : List Char} (hm : Masks m (doubled t).rest) :
    doubled ((bif (doubled t).closed then ['\''] else []) ++ m) =
      ⟨[], (doubled t).closed, m⟩ := by
  fun_induction doubled t with
  | case1 =>
    rw [hm.eq_nil]
    rfl
  | case2 rest =>
    obtain ⟨m', rfl⟩ := hm.exists_of_lineEnd
    rfl
  | case3 rest ih => exact ih hm
  | case4 rest hrest =>
    have hm' := hm.not_cons (q := '\'') (by decide) hrest
    rw [cond_true, List.singleton_append, doubled]
    exact hm'
  | case5 c rest _ _ _ ih => exact ih hm

theorem escaped_end {q : Char} {t m : List Char} (hq : q = '"' ∨ q = '\'')
    (hm : Masks m (escaped q t).rest) :
    escaped q ((bif (escaped q t).closed then [q] else []) ++ m) =
      ⟨[], (escaped q t).closed, m⟩ := by
  fun_induction escaped q t with
  | case1 =>
    rw [hm.eq_nil]
    rfl
  | case2 rest =>
    obtain ⟨m', rfl⟩ := hm.exists_of_lineEnd
    rfl
  | case3 =>
    rw [hm.eq_nil]
    rfl
  | case4 rest =>
    obtain ⟨m', rfl⟩ := hm.exists_of_lineEnd
    rfl
  | case5 c rest _ ih => exact ih hm
  | case6 c rest _ _ _ heq =>
    rw [cond_true, List.singleton_append]
    rcases hq with rfl | rfl <;> simp [escaped]
  | case7 c rest _ _ _ _ _ ih => exact ih hm

theorem block_end {t m : List Char} (hm : Masks m (block t).rest) :
    block ((bif (block t).closed then ['"', '"', '"'] else []) ++ m) =
      ⟨[], (block t).closed, m⟩ := by
  fun_induction block t with
  | case1 =>
    rw [hm.eq_nil]
    rfl
  | case2 rest => rfl
  | case3 c rest _ ih => exact ih hm

end Body

/-- A literal whose pieces are hidden is read as before, up to what it reads as. -/
theorem Opens.reread {s : Syntax} {quote t m : List Char} {read : List Char → Body}
    (h : Opens s quote read) (hm : Masks m (read t).rest) :
    read ((read t).hidden ++ ((bif (read t).closed then quote else []) ++ m)) =
      ⟨(read t).hidden.map .plain, (read t).closed, m⟩ := by
  -- it is enough that hidden characters are passed and that the end is found
  suffices hread : (∀ c ∈ (read t).hidden, ∀ m, read (c :: m) = (read m).push (.plain c)) ∧
      read ((bif (read t).closed then quote else []) ++ m) = ⟨[], (read t).closed, m⟩ by
    rw [read_append hread.1, hread.2]
    simp [Body.prepend]
  cases h with
  | doubled =>
    refine ⟨fun c hc m => ?_, Body.doubled_end hm⟩
    rw [Body.eq_space_of_mem_hidden (Body.lineEnd_notMem_doubled t) hc]
    exact Body.doubled_plain (by decide) (by decide) m
  | @escaped q hq =>
    refine ⟨fun c hc m => ?_, Body.escaped_end hq hm⟩
    rw [Body.eq_space_of_mem_hidden (Body.lineEnd_notMem_escaped q t) hc]
    apply Body.escaped_plain (by decide) (by decide)
    rcases hq with rfl | rfl <;> decide
  | block =>
    refine ⟨fun c hc m => ?_, Body.block_end hm⟩
    obtain ⟨p, _, hc⟩ := List.mem_flatMap.mp hc
    exact Body.block_hidden (isHidden_of_mem_flatMap_blank hc) m

/-! ## The whole text -/

theorem space_notMem_openers {s : Syntax} : ∀ o ∈ s.openers, ' ' ∉ o := by
  cases s <;> decide

/-- A literal is hidden behind its delimiter, and its mask opens the same literal. -/
theorem OpensAt.segments_hidden {s : Syntax} {quote inner m : List Char}
    {read : List Char → Body} (h : OpensAt s quote read inner) (hm : Masks m (read inner).rest) :
    segments s (((read inner).segment quote).masked ++ m) =
      ((read inner).segment quote).rescanned ++ segments s m := by
  have hmasks : Masks ((read inner).hidden ++ ((bif (read inner).closed then quote else []) ++ m))
      inner := by
    have hhidden : Masks (read inner).hidden ((read inner).pieces.flatMap (·.source)) := by
      rw [Body.hidden, ← List.flatMap_assoc]
      exact .flatMap_blank _
    have hsource := h.opens.source_eq inner
    rw [Body.source, List.append_assoc] at hsource
    have happend := hhidden.append ((Masks.refl (bif (read inner).closed then quote else [])).append hm)
    rwa [hsource] at happend
  have hopens : OpensAt s quote read
      ((read inner).hidden ++ ((bif (read inner).closed then quote else []) ++ m)) := by
    refine ⟨h.opens, fun hquote hprefix => h.not_block hquote ?_⟩
    exact hmasks.prefix_of_visible hprefix (by decide)
  have hmasked : ((read inner).segment quote).masked ++ m =
      quote ++ ((read inner).hidden ++ ((bif (read inner).closed then quote else []) ++ m)) := by
    simp [Body.segment, Segment.masked, Body.hidden]
  rw [hmasked, hopens.segments_eq, h.opens.reread hm]
  rfl

/-- The mask of a segment is cut as the segment says, whatever mask is behind it. -/
theorem segments_masked_append {s : Syntax} {c : Char} {cs m : List Char}
    (hm : Masks m (firstSegment s c cs).2) :
    segments s ((firstSegment s c cs).1.masked ++ m) =
      (firstSegment s c cs).1.rescanned ++ segments s m := by
  rcases firstSegment_cases s c cs with
    hcode | ⟨text, rest, hcomment⟩ | ⟨quote, read, inner, hopens, ht⟩
  · have hnone := firstSegment_eq_code_iff.mp hcode
    rw [hcode] at hm ⊢
    have hagain : firstSegment s c m = (.code c, m) := by
      apply firstSegment_eq_code_iff.mpr
      intro o ho hprefix
      exact hnone o ho ((Masks.keep c hm).prefix_of_visible hprefix (space_notMem_openers o ho))
    rw [Segment.masked, List.singleton_append, segments, hagain]
    rfl
  · rw [hcomment]
    exact segments_code_append (fun d hd => head?_ne_of_isHidden (isHidden_of_mem_flatMap_blank hd)) _
  · have hfirst := hopens.firstSegment_eq ht
    rw [hfirst] at hm ⊢
    exact hopens.segments_hidden hm

theorem segments_masked (s : Syntax) (t : List Char) :
    segments s ((segments s t).flatMap Segment.masked) =
      (segments s t).flatMap Segment.rescanned := by
  fun_induction segments s t with
  | case1 => simp [segments]
  | case2 c cs ih =>
    rw [List.flatMap_cons, List.flatMap_cons,
      segments_masked_append (masks_segments s (firstSegment s c cs).2), ih]

/-! ## What the second mask shows -/

/-- A segment with nothing to hide: a literal has only spaces and line ends between its quotes. -/
def Segment.IsHollow : Segment → Prop
  | .code _ => True
  | .comment _ => False
  | .literal _ pieces _ => ∀ p ∈ pieces, ∃ c, IsHidden c ∧ p = .plain c

theorem Segment.isHollow_of_mem_rescanned {seg part : Segment} (h : part ∈ seg.rescanned) :
    part.IsHollow := by
  cases seg with
  | code c =>
    rw [List.mem_singleton.mp h]
    trivial
  | comment text =>
    obtain ⟨c, _, rfl⟩ := List.mem_map.mp h
    trivial
  | literal quote pieces closed =>
    rw [List.mem_singleton.mp h]
    intro p hp
    obtain ⟨c, hc, rfl⟩ := List.mem_map.mp hp
    obtain ⟨q, _, hc⟩ := List.mem_flatMap.mp hc
    exact ⟨c, isHidden_of_mem_flatMap_blank hc, rfl⟩

theorem Segment.masked_rescanned (seg : Segment) :
    seg.rescanned.flatMap Segment.masked = seg.masked := by
  cases seg with
  | code c => rfl
  | comment text =>
    rw [rescanned, List.flatMap_map]
    exact List.flatMap_singleton' _
  | literal quote pieces closed =>
    have hhidden : ∀ c ∈ pieces.flatMap (·.source.flatMap blank), IsHidden c := by
      intro c hc
      obtain ⟨p, _, hc⟩ := List.mem_flatMap.mp hc
      exact isHidden_of_mem_flatMap_blank hc
    have hplain : ∀ c, (Piece.plain c).source.flatMap blank = blank c := by
      intro c
      exact List.flatMap_singleton blank c
    rw [rescanned, List.flatMap_singleton, masked, masked, List.flatMap_map]
    simp only [hplain, flatMap_blank_eq_self hhidden]

theorem Segment.width_rescanned (seg : Segment) :
    width (seg.rescanned.flatMap Segment.source) = width seg.source := by
  have h := masks_flatMap seg.rescanned
  rw [masked_rescanned] at h
  rw [← h.width_eq, seg.masks.width_eq]

theorem map_span_literalsFrom_rescanned (n : Nat) (parts : List Segment) :
    (literalsFrom n (parts.flatMap Segment.rescanned)).map (·.span) =
      (literalsFrom n parts).map (·.span) := by
  induction parts generalizing n with
  | nil => rfl
  | cons seg parts ih =>
    cases seg with
    | code c => exact ih _
    | comment text =>
      rw [List.flatMap_cons, Segment.rescanned, literalsFrom_code,
        (Masks.flatMap_blank text).width_eq]
      exact ih _
    | literal quote pieces closed =>
      have hwidth := Segment.width_rescanned (.literal quote pieces closed)
      rw [Segment.rescanned, List.flatMap_singleton] at hwidth
      rw [List.flatMap_cons, Segment.rescanned, List.singleton_append, literalsFrom, literalsFrom,
        List.map_cons, List.map_cons, hwidth, ih]

namespace Masked

theorem mask_again (s : Syntax) (t : List Char) :
    (of s (of s t).code).code = (of s t).code ∧
      (of s (of s t).code).literals.map (·.span) = (of s t).literals.map (·.span) ∧
      segments s (of s t).code = (segments s t).flatMap Segment.rescanned ∧
      ∀ seg ∈ segments s (of s t).code, seg.IsHollow := by
  have hcut : segments s (of s t).code = (segments s t).flatMap Segment.rescanned :=
    segments_masked s t
  refine ⟨?_, ?_, hcut, ?_⟩
  · change (segments s (of s t).code).flatMap Segment.masked = _
    rw [hcut, List.flatMap_assoc]
    simp only [Segment.masked_rescanned]
    rfl
  · change (literalsFrom 0 (segments s (of s t).code)).map (·.span) = _
    rw [hcut]
    exact map_span_literalsFrom_rescanned 0 _
  · intro seg hseg
    rw [hcut] at hseg
    obtain ⟨before, _, hseg⟩ := List.mem_flatMap.mp hseg
    exact Segment.isHollow_of_mem_rescanned hseg

end Masked

end MigrationAudit.Source
