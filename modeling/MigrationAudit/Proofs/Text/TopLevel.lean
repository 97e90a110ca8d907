import MigrationAudit.Proofs.Text.Pieces

/-!
# Texts cut outside brackets

One counter serves all kinds of brackets, and one bracket too many closes nothing. A text is cut at
each separator that this counter meets at zero, so every piece but the last ends at depth zero, and
the depth in a piece is counted from its start. White space changes no depth. So what is left of the
pieces when they are trimmed, and when the empty ones are left out, has no separator at depth zero
either, and comes apart into the same pieces when it is joined by separators again.
-/

namespace MigrationAudit.Text

variable {sep c : Char} {depth : Nat} {cs piece : List Char} {pieces : List (List Char)}

/-! ## Depth -/

/-- The depth behind a character. A bracket too many closes nothing. -/
def depthPast (depth : Nat) (c : Char) : Nat :=
  if isOpening c then depth + 1 else if isClosing c then depth - 1 else depth

/-- The depth at the end of a text that starts at a depth. -/
def depthAcross (depth : Nat) (cs : List Char) : Nat := cs.foldl depthPast depth

/-- In a text that starts at a depth, no separator stands at depth zero. -/
def IsUncut (sep : Char) (depth : Nat) (cs : List Char) : Prop :=
  ∀ before after, cs = before ++ sep :: after → depthAcross depth before ≠ 0

theorem depthAcross_append (depth : Nat) (a b : List Char) :
    depthAcross depth (a ++ b) = depthAcross (depthAcross depth a) b := List.foldl_append

theorem depthAcross_of_isBracketFree (h : IsBracketFree cs) : depthAcross depth cs = depth := by
  induction cs with
  | nil => rfl
  | cons c cs ih =>
    obtain ⟨⟨hopening, hclosing⟩, hcs⟩ := List.forall_mem_cons.mp h
    have hpast : depthPast depth c = depth := by simp [depthPast, hopening, hclosing]
    rw [depthAcross, List.foldl_cons, hpast]
    exact ih hcs

theorem isBracketFree_of_isBlank (h : ∀ c ∈ cs, isBlank c = true) : IsBracketFree cs := by
  have hnone : brackets.any isBlank = false := by decide
  exact fun c hc => bracketFree_of_notMem fun hmem => List.any_eq_false.mp hnone c hmem (h c hc)

theorem isUncut_nil : IsUncut sep depth [] := fun before after h => by simp at h

theorem isUncut_cons_iff :
    IsUncut sep depth (c :: cs) ↔ (c = sep → depth ≠ 0) ∧ IsUncut sep (depthPast depth c) cs := by
  constructor
  · intro h
    refine ⟨?_, fun before after hcs => h (c :: before) after (by rw [hcs, List.cons_append])⟩
    rintro rfl
    exact h [] cs rfl
  · rintro ⟨hc, hcs⟩ before after heq
    cases before with
    | nil => exact hc (List.cons.inj heq).1
    | cons d before =>
      obtain ⟨rfl, rfl⟩ := List.cons.inj heq
      exact hcs before after rfl

theorem isUncut_append_iff {a b : List Char} :
    IsUncut sep depth (a ++ b) ↔ IsUncut sep depth a ∧ IsUncut sep (depthAcross depth a) b := by
  induction a generalizing depth with
  | nil => exact (and_iff_right isUncut_nil).symm
  | cons c a ih =>
    rw [List.cons_append, isUncut_cons_iff, ih, isUncut_cons_iff, and_assoc]
    rfl

/-- White space around a text changes neither its depths nor its cuts. -/
theorem isUncut_and_depthAcross_of_trim {lead text trail : List Char}
    (hlead : ∀ c ∈ lead, isBlank c = true) (htrail : ∀ c ∈ trail, isBlank c = true)
    (h : IsUncut sep depth (lead ++ (text ++ trail))) :
    IsUncut sep depth text ∧
      depthAcross depth (lead ++ (text ++ trail)) = depthAcross depth text := by
  have hlead := @depthAcross_of_isBracketFree depth lead (isBracketFree_of_isBlank hlead)
  have htrail := isBracketFree_of_isBlank htrail
  rw [isUncut_append_iff, hlead, isUncut_append_iff] at h
  rw [depthAcross_append, hlead, depthAcross_append, depthAcross_of_isBracketFree htrail]
  exact ⟨h.2.1, rfl⟩

/-! ## Cuts -/

/-- A text is cut into pieces: at each separator at depth zero, and nowhere else. -/
inductive IsCutInto (sep : Char) : List Char → List (List Char) → Prop
  | last {piece : List Char} (uncut : IsUncut sep 0 piece) : IsCutInto sep piece [piece]
  | piece {piece cs : List Char} {pieces : List (List Char)} (uncut : IsUncut sep 0 piece)
      (closed : depthAcross 0 piece = 0) (rest : IsCutInto sep cs pieces) :
      IsCutInto sep (piece ++ sep :: cs) (piece :: pieces)

theorem topLevelPieces_of_isUncut (h : IsUncut sep depth cs) (piece rest : List Char) :
    topLevelPieces sep depth piece (cs ++ rest) =
      topLevelPieces sep (depthAcross depth cs) (cs.reverse ++ piece) rest := by
  induction cs generalizing depth piece with
  | nil => rfl
  | cons c cs ih =>
    obtain ⟨hc, hcs⟩ := isUncut_cons_iff.mp h
    have hnone : (c == sep && depth == 0) = false := by simpa using hc
    have hstep : topLevelPieces sep depth piece (c :: (cs ++ rest)) =
        topLevelPieces sep (depthPast depth c) (c :: piece) (cs ++ rest) := by
      rw [topLevelPieces, hnone, depthPast, if_neg Bool.false_ne_true]
      split
      · rfl
      · split <;> rfl
    rw [List.cons_append, hstep, ih hcs, List.reverse_cons, List.append_assoc]
    rfl

section Separator

variable (hsep : sep ∉ brackets)

include hsep

theorem topLevelPieces_cons_sep (piece cs : List Char) :
    topLevelPieces sep 0 piece (sep :: cs) = piece.reverse :: topLevelPieces sep 0 [] cs := by
  obtain ⟨hopening, hclosing⟩ := bracketFree_of_notMem hsep
  simp [topLevelPieces, hopening, hclosing]

/-- The pieces are those that the text is cut into, whatever of the first piece has been seen. -/
theorem isCutInto_topLevelPieces (hpiece : IsUncut sep 0 piece.reverse) (cs : List Char) :
    IsCutInto sep (piece.reverse ++ cs)
      (topLevelPieces sep (depthAcross 0 piece.reverse) piece cs) := by
  induction cs generalizing piece with
  | nil =>
    rw [List.append_nil]
    exact .last hpiece
  | cons c cs ih =>
    by_cases hcut : c = sep ∧ depthAcross 0 piece.reverse = 0
    · obtain ⟨rfl, hdepth⟩ := hcut
      rw [hdepth, topLevelPieces_cons_sep hsep]
      exact .piece hpiece hdepth (@ih [] isUncut_nil)
    · have hone : IsUncut sep (depthAcross 0 piece.reverse) [c] :=
        isUncut_cons_iff.mpr ⟨fun hc hdepth => hcut ⟨hc, hdepth⟩, isUncut_nil⟩
      have hmore : IsUncut sep 0 (c :: piece).reverse := by
        rw [List.reverse_cons, isUncut_append_iff]
        exact ⟨hpiece, hone⟩
      have hstep := topLevelPieces_of_isUncut hone piece cs
      have hrest := ih hmore
      rw [List.reverse_cons, depthAcross_append, List.append_assoc] at hrest
      rw [List.singleton_append] at hstep hrest
      rw [hstep]
      exact hrest

/-- There is only one way to cut a text. -/
theorem topLevelPieces_eq_iff :
    topLevelPieces sep 0 [] cs = pieces ↔ IsCutInto sep cs pieces := by
  constructor
  · rintro rfl
    exact @isCutInto_topLevelPieces sep [] hsep isUncut_nil cs
  · intro h
    induction h with
    | last uncut =>
      have h := topLevelPieces_of_isUncut uncut [] []
      simpa [topLevelPieces] using h
    | @piece piece cs pieces uncut closed rest ih =>
      rw [topLevelPieces_of_isUncut uncut, closed, topLevelPieces_cons_sep hsep, ih]
      simp

end Separator

/-! ## Trimmed pieces -/

/-- Pieces of a text between separators at depth zero. They stand in the text one behind the other,
with nothing but separators and white space around them, and a separator between any two. -/
structure IsTopLevelSplit (sep : Char) (cs : List Char) (pieces : List (List Char)) : Prop where
  ne_nil : ∀ p ∈ pieces, p ≠ []
  trimmed : ∀ p ∈ pieces, p.head?.any isBlank = false ∧ p.getLast?.any isBlank = false
  placed : ∃ lead gaps, gaps.length = pieces.length ∧
    cs = lead ++ (List.zipWith (· ++ ·) pieces gaps).flatten ∧
    (∀ gap ∈ lead :: gaps, ∀ c ∈ gap, c = sep ∨ isBlank c = true) ∧
    ∀ gap ∈ gaps.dropLast, sep ∈ gap
  uncut : ∀ p ∈ pieces, IsUncut sep 0 p
  closed : ∀ p ∈ pieces.dropLast, depthAcross 0 p = 0

namespace IsTopLevelSplit

variable {gap text trail : List Char}

theorem nil : IsTopLevelSplit sep [] [] where
  ne_nil := List.forall_mem_nil _
  trimmed := List.forall_mem_nil _
  placed := ⟨[], [], rfl, rfl, by simp, List.forall_mem_nil _⟩
  uncut := List.forall_mem_nil _
  closed := List.forall_mem_nil _

theorem behind_gap (h : IsTopLevelSplit sep cs pieces)
    (hgap : ∀ c ∈ gap, c = sep ∨ isBlank c = true) : IsTopLevelSplit sep (gap ++ cs) pieces := by
  obtain ⟨lead, gaps, hlength, hcs, hblank, hsep⟩ := h.placed
  obtain ⟨hlead, hgaps⟩ := List.forall_mem_cons.mp hblank
  have hmore := List.forall_mem_cons.mpr ⟨List.forall_mem_append.mpr ⟨hgap, hlead⟩, hgaps⟩
  exact ⟨h.ne_nil, h.trimmed,
    ⟨gap ++ lead, gaps, hlength, by rw [hcs, List.append_assoc], hmore, hsep⟩, h.uncut, h.closed⟩

theorem singleton (hne : text ≠ [])
    (htrimmed : text.head?.any isBlank = false ∧ text.getLast?.any isBlank = false)
    (huncut : IsUncut sep 0 text) (htrail : ∀ c ∈ trail, isBlank c = true) :
    IsTopLevelSplit sep (text ++ trail) [text] where
  ne_nil := List.forall_mem_singleton.mpr hne
  trimmed := List.forall_mem_singleton.mpr htrimmed
  placed := ⟨[], [trail], rfl, by simp, by simpa using fun c hc => .inr (htrail c hc),
    List.forall_mem_nil _⟩
  uncut := List.forall_mem_singleton.mpr huncut
  closed := List.forall_mem_nil _

theorem cons (h : IsTopLevelSplit sep cs pieces) (hne : text ≠ [])
    (htrimmed : text.head?.any isBlank = false ∧ text.getLast?.any isBlank = false)
    (huncut : IsUncut sep 0 text) (hclosed : depthAcross 0 text = 0)
    (htrail : ∀ c ∈ trail, isBlank c = true) :
    IsTopLevelSplit sep (text ++ (trail ++ sep :: cs)) (text :: pieces) where
  ne_nil := List.forall_mem_cons.mpr ⟨hne, h.ne_nil⟩
  trimmed := List.forall_mem_cons.mpr ⟨htrimmed, h.trimmed⟩
  placed := by
    obtain ⟨lead, gaps, hlength, hcs, hblank, hsep⟩ := h.placed
    obtain ⟨hlead, hgaps⟩ := List.forall_mem_cons.mp hblank
    refine ⟨[], (trail ++ sep :: lead) :: gaps, by simp [hlength], by simp [hcs], ?_, ?_⟩
    · have hgap : ∀ c ∈ trail ++ sep :: lead, c = sep ∨ isBlank c = true :=
        List.forall_mem_append.mpr ⟨fun c hc => .inr (htrail c hc),
          List.forall_mem_cons.mpr ⟨.inl rfl, hlead⟩⟩
      exact List.forall_mem_cons.mpr ⟨List.forall_mem_nil _, List.forall_mem_cons.mpr ⟨hgap, hgaps⟩⟩
    · cases gaps with
      | nil => exact List.forall_mem_nil _
      | cons next gaps => exact List.forall_mem_cons.mpr ⟨by simp, hsep⟩
  uncut := List.forall_mem_cons.mpr ⟨huncut, h.uncut⟩
  closed := by
    cases pieces with
    | nil => exact List.forall_mem_nil _
    | cons next pieces => exact List.forall_mem_cons.mpr ⟨hclosed, h.closed⟩

end IsTopLevelSplit

/-- What is left of the pieces of a text when they are trimmed and the empty ones are left out. -/
theorem IsCutInto.isTopLevelSplit (h : IsCutInto sep cs pieces) :
    IsTopLevelSplit sep cs ((pieces.map trim).filter (!·.isEmpty)) := by
  have hends {text : List Char} (hstart : StartsVisibly text) (hend : StartsVisibly text.reverse) :
      text ≠ [] ∧ text.head?.any isBlank = false ∧ text.getLast?.any isBlank = false := by
    refine ⟨?_, hstart.head?, by simpa using hend.head?⟩
    rintro rfl
    simp [StartsVisibly] at hstart
  induction h with
  | @last piece uncut =>
    rcases exists_trimmed piece with hblank | ⟨lead, text, trail, rfl, hlead, htrail, hstart, hend⟩
    · have hgap : IsTopLevelSplit sep (piece ++ []) [] :=
        IsTopLevelSplit.nil.behind_gap fun c hc => .inr (hblank c hc)
      simpa [trim_eq_nil hblank] using hgap
    · obtain ⟨hne, htrimmed⟩ := hends hstart hend
      have huncut := (isUncut_and_depthAcross_of_trim hlead htrail uncut).1
      have hpiece := (IsTopLevelSplit.singleton hne htrimmed huncut htrail).behind_gap
        fun c hc => .inr (hlead c hc)
      simpa [(trim_append hlead htrail hstart hend).1, hne] using hpiece
  | @piece piece cs pieces uncut closed rest ih =>
    rcases exists_trimmed piece with hblank | ⟨lead, text, trail, rfl, hlead, htrail, hstart, hend⟩
    · have hgap : ∀ c ∈ piece ++ [sep], c = sep ∨ isBlank c = true :=
        List.forall_mem_append.mpr ⟨fun c hc => .inr (hblank c hc),
          List.forall_mem_singleton.mpr (.inl rfl)⟩
      simpa [trim_eq_nil hblank] using ih.behind_gap hgap
    · obtain ⟨hne, htrimmed⟩ := hends hstart hend
      obtain ⟨huncut, hdepth⟩ := isUncut_and_depthAcross_of_trim hlead htrail uncut
      have hpiece := (ih.cons hne htrimmed huncut (hdepth.symm.trans closed) htrail).behind_gap
        fun c hc => .inr (hlead c hc)
      simpa [(trim_append hlead htrail hstart hend).1, hne] using hpiece

/-- Pieces with separators between them are what the text that they make is cut into. -/
theorem isCutInto_intercalate (hne : pieces ≠ []) (huncut : ∀ p ∈ pieces, IsUncut sep 0 p)
    (hclosed : ∀ p ∈ pieces.dropLast, depthAcross 0 p = 0) :
    IsCutInto sep ([sep].intercalate pieces) pieces := by
  induction pieces with
  | nil => contradiction
  | cons piece pieces ih =>
    obtain ⟨hpiece, hpieces⟩ := List.forall_mem_cons.mp huncut
    cases pieces with
    | nil => simpa using IsCutInto.last hpiece
    | cons next pieces =>
      obtain ⟨hdepth, hclosed⟩ := List.forall_mem_cons.mp hclosed
      rw [intercalate_cons_cons]
      exact .piece hpiece hdepth (ih (List.cons_ne_nil next pieces) hpieces hclosed)

theorem splitTopLevel_intercalate (hsep : sep ∉ brackets) (h : IsTopLevelSplit sep cs pieces) :
    splitTopLevel sep ([sep].intercalate pieces) = pieces := by
  by_cases hnil : pieces = []
  · rw [hnil]
    rfl
  · have hpieces := (topLevelPieces_eq_iff hsep).mpr
      (isCutInto_intercalate hnil h.uncut h.closed)
    have htrim : ∀ p ∈ pieces, trim p = id p := fun p hp =>
      trimWhere_eq_self (h.trimmed p hp).1 (h.trimmed p hp).2
    rw [splitTopLevel, hpieces, List.map_congr_left htrim, List.map_id]
    exact List.filter_eq_self.mpr fun p hp => by simpa using h.ne_nil p hp

/-- A text comes apart into trimmed pieces without separators at depth zero, and each but the last
closes what it opens; joined by separators, they come apart again. -/
theorem splitTopLevel_again (hsep : sep ∉ brackets) (cs : List Char) :
    IsTopLevelSplit sep cs (splitTopLevel sep cs) ∧
      splitTopLevel sep ([sep].intercalate (splitTopLevel sep cs)) = splitTopLevel sep cs := by
  have hsplit : IsTopLevelSplit sep cs (splitTopLevel sep cs) :=
    ((topLevelPieces_eq_iff hsep).mp rfl).isTopLevelSplit
  exact ⟨hsplit, splitTopLevel_intercalate hsep hsplit⟩

/-- White space as the separator, a bracket that closes nothing, and one that is not closed. -/
theorem splitTopLevel_again_space :
    let cs := " a> (b c]  d<- e f ".toList
    ' ' ∉ brackets ∧ splitTopLevel ' ' cs = ["a>".toList, "(b c]".toList, "d<- e f".toList] ∧
      IsTopLevelSplit ' ' cs (splitTopLevel ' ' cs) ∧
      splitTopLevel ' ' ([' '].intercalate (splitTopLevel ' ' cs)) = splitTopLevel ' ' cs := by
  intro cs
  have hspace : ' ' ∉ brackets := by decide
  exact ⟨hspace, by decide, splitTopLevel_again hspace cs⟩

end MigrationAudit.Text
