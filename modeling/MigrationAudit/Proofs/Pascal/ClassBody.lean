import MigrationAudit.Proofs.Pascal.ClassMembers
import MigrationAudit.Proofs.Source.Continuation

/-!
# Class bodies read back

What a body declares is found statement by statement. A statement changes what has been found as its
member says; a visibility keyword in front of it changes nothing but the visibility.
-/

namespace MigrationAudit.Pascal

open Text Source

variable {c : Cursor} {piece rest : List Char}

/-! ## Words in front of a declaration -/

namespace MemberContext

theorem read_eq (m : MemberContext) (c : Cursor) :
    m.read c =
      match c.adjacentWord? with
      | none => (m, c)
      | some w =>
        match m.note? w.lower with
        | some m => m.read w.behind.skipBlank
        | none => (m, c) := by
  rw [read]
  split
  · next hw => rw [hw]
  · next w hw =>
    cases hm : m.note? w.lower <;> simp only [hw, hm]

theorem read_of_after_eq_nil (m : MemberContext) (h : c.after = []) : m.read c = (m, c) := by
  have hword : c.adjacentWord? = none := by
    simp [Cursor.adjacentWord?, Cursor.skipBlank, Cursor.skipWhile, Cursor.wordHere, h]
  rw [read_eq, hword]

theorem read_of_word (m : MemberContext) {word : List Char} (hafter : c.after = word ++ rest)
    (hword : isIdentifier word = true) (hrest : rest.head?.any isIdent = false) :
    m.read c =
      match m.note? (lowered word) with
      | some m => m.read (c.advance word rest).skipBlank
      | none => (m, c) := by
  obtain ⟨hne, hident⟩ := isIdent_of_isIdentifier hword
  have hafter : c.after = [] ++ (word ++ rest) := hafter
  have hadjacent := Cursor.adjacentWord?_of_after hafter (List.forall_mem_nil _) hne hident hrest
  rw [read_eq, hadjacent]
  rfl

theorem read_prepend (m : MemberContext) (c : Cursor) (seen : List Char) :
    m.read (c.prepend seen) = ((m.read c).1, (m.read c).2.prepend seen) := by
  fun_induction read m c with
  | case1 m c hw => rw [read_eq, Cursor.adjacentWord?_prepend, hw, Option.map_none]
  | case2 m c w hw m' hm ih =>
    have hskip : (w.behind.prepend seen).skipBlank = w.behind.skipBlank.prepend seen :=
      Cursor.skipWhile_prepend ..
    rw [read_eq, Cursor.adjacentWord?_prepend, hw, Option.map_some]
    simp only [Word.lower] at hm ⊢
    rw [hm, ← ih, hskip]
  | case3 m c w hw hm =>
    rw [read_eq, Cursor.adjacentWord?_prepend, hw, Option.map_some]
    simp only [Word.lower] at hm ⊢
    rw [hm]

/-- The words that belong in front of declarations. -/
def prefixWords : List String :=
  ["strict", "var", "const", "type", "class", "private", "protected", "public", "automated",
    "published"]

theorem note?_eq_none (m : MemberContext) {word : String} (h : word ∉ prefixWords) :
    m.note? word = none := by
  simp only [prefixWords, List.mem_cons, List.not_mem_nil, or_false, not_or] at h
  unfold note? visibility?
  split <;> simp_all

theorem read_of_startsFreeOf (m : MemberContext) (h : StartsFreeOf prefixWords c.after) :
    m.read c = (m, c) := by
  obtain ⟨word, rest, hafter, hword, hfree, hrest⟩ := h
  rw [read_of_word m hafter hword hrest, note?_eq_none m hfree]

theorem note?_visibility (m : MemberContext) {v : Visibility} (h : v ≠ .packageAccess) :
    m.note? (lowered (tag v).toList) = some { m with visibility := v, skipping := false } := by
  have hlower : lowered (tag v).toList = tag v := by cases v <;> decide
  rw [hlower]
  cases v with
  | packageAccess => contradiction
  | _ => rfl

theorem read_of_note? {m m' : MemberContext} {word lead text : List Char}
    (hafter : c.after = word ++ (lead ++ text)) (hword : isIdentifier word = true)
    (hnote : m.note? (lowered word) = some m') (hlead : ∀ a ∈ lead, isBlank a = true)
    (htext : text.head?.any isBlank = false) (hedge : (lead ++ text).head?.any isIdent = false) :
    m.read c = m'.read (c.advance (word ++ lead) text) := by
  have hskip : (c.advance word (lead ++ text)).skipBlank = c.advance (word ++ lead) text := by
    rw [Cursor.skipBlank, Cursor.skipWhile_of_after (Cursor.after_advance ..) hlead htext,
      Cursor.advance_advance]
  rw [read_of_word m hafter hword hedge, hnote]
  simp only [hskip]

theorem read_classWord (m : MemberContext) (classLevel : Bool) (n : Nat) {text : List Char}
    (htext : StartsFreeOf prefixWords text) :
    read { m with classLevel := false } ⟨n, [], classWord classLevel ++ text⟩ =
      ({ m with classLevel },
        Cursor.advance ⟨n, [], classWord classLevel ++ text⟩ (classWord classLevel) text) := by
  cases classLevel with
  | false => exact read_of_startsFreeOf { m with classLevel := false } htext
  | true =>
    obtain ⟨word, rest, rfl, hword, -, -⟩ := id htext
    have hspace : ([' '] ++ (word ++ rest)).head?.any isIdent = false := isIdent_space
    have hnote : note? { m with classLevel := false } (lowered "class".toList) =
        some { m with classLevel := true } := by
      have hlower : lowered "class".toList = "class" := by decide
      rw [hlower]
      rfl
    have hread := read_of_note? (c := ⟨n, [], "class".toList ++ ([' '] ++ (word ++ rest))⟩) rfl
      (by decide) hnote (List.all_eq_true.mp (by decide)) (head?_name hword).2 hspace
    exact hread.trans (read_of_startsFreeOf _ htext)

end MemberContext

/-! ## Statements one by one -/

section Reading

variable (source : Masked) (s : ExtractionSettings) (owner : String)

/-- The members found when one more statement, with the white space around it, is read. -/
def noteStatement (m : Members) (p : Nat × List Char) : Members :=
  if !(trim p.2).isEmpty then
    Members.note source s owner m (p.1 + width (p.2.takeWhile isBlank), trim p.2)
  else m

/-- The members found when the rest of a body, which starts at byte `n`, is read. -/
def readFrom (m : Members) (n : Nat) (cs : List Char) : Members :=
  (statementsFrom n n 0 [] cs).foldl (noteStatement source s owner) m

theorem members_read_eq (body : Span) :
    Members.read source s owner body =
      readFrom source s owner {} body.start (body.slice source.code) := by
  rw [Members.read, statements, List.foldl_filter, List.foldl_map]
  rfl

end Reading

theorem statementsFrom_eq (start n depth : Nat) (piece cs : List Char) :
    statementsFrom start n depth piece cs =
      (start, piece.reverse ++ (splitStatement depth cs).1) ::
        match (splitStatement depth cs).2 with
        | [] => []
        | _ :: rest =>
          let next := n + width (splitStatement depth cs).1 + 1
          statementsFrom next next 0 [] rest := by
  induction cs generalizing n depth piece with
  | nil => simp [statementsFrom, splitStatement]
  | cons c cs ih =>
    by_cases hc : (c == ';' && depth == 0) = true
    · have hsemicolon : c = ';' := by simp_all
      rw [statementsFrom, splitStatement, if_pos hc, if_pos hc, List.append_nil, hsemicolon]
      rfl
    · rw [statementsFrom, splitStatement, if_neg hc, if_neg hc, ih]
      simp only [List.reverse_cons, List.append_assoc, List.singleton_append, width,
        Nat.add_assoc]

/-- A statement is the beginning of a text that is cut in front of a semicolon. -/
theorem isTame_splitStatement (h : IsTame rest) : IsTame (splitStatement 0 rest).1 := by
  have hhead : ∀ depth cs, (splitStatement depth cs).2.head?.any isIdent = false := by
    intro depth cs
    fun_induction splitStatement depth cs with
    | case1 => rfl
    | case2 depth c cs hc =>
      have hsemicolon : c = ';' := by simp_all
      rw [hsemicolon]
      exact isIdent_of_mem_bodyMarks ';' (by decide)
    | case3 depth c cs hc depth' ih => exact ih
  rw [← splitStatement_append 0 rest] at h
  exact (h.of_append (.inr (hhead 0 rest))).1

theorem countKeywords_of_isTame {cs : List Char} (h : IsTame cs) :
    countKeywords cs ["record"] false = 0 ∧ countKeywords cs ["end"] false = 0 := by
  have hall : ∀ k ∈ ["record", "end"], k ∈ blockWords ∧ lowered k.toList = k := by decide
  have hnone : ∀ k ∈ ["record", "end"], countKeywords cs [k] false = 0 := by
    intro k hk
    obtain ⟨hmem, hlower⟩ := hall k hk
    refine List.countP_eq_zero.mpr fun w hw hsame => ?_
    have hsame : lowerLatin w.text = lowerLatin k.toList := by simpa [sameLatin] using hsame
    have hword : lowered w.text = k := by rw [lowered, hsame, ← lowered, hlower]
    exact h w.text (List.mem_map_of_mem hw) (hword ▸ hmem)
  exact ⟨hnone _ (by decide), hnone _ (by decide)⟩

section Statements

variable {source : Masked} {s : ExtractionSettings} {owner : String} {m : Members} {n : Nat}

def settle (source : Masked) (s : ExtractionSettings) (owner : String) (m : Members)
    (r : MemberContext × Cursor) : Members :=
  if r.2.after.isEmpty then { m with context := r.1 }
  else
    Members.readDeclaration { m with context := r.1 } s owner 0 0 r.2.after
      (source.lineAt r.2.offset)

theorem note_eq_settle {text : List Char} (hm : m.recordDepth = 0) (h : IsTame text) :
    Members.note source s owner m (n, text) =
      settle source s owner m
        (MemberContext.read { m.context with classLevel := false } ⟨n, [], text⟩) := by
  obtain ⟨hopens, hcloses⟩ := countKeywords_of_isTame h
  have hdepth : ¬0 < m.recordDepth := by omega
  simp only [Members.note, hopens, hcloses, if_neg hdepth]
  rfl

theorem note_with_eq_settle {text : List Char} {k : MemberContext} (hm : m.recordDepth = 0)
    (h : IsTame text) :
    Members.note source s owner { m with context := k } (n, text) =
      settle source s owner m (MemberContext.read { k with classLevel := false } ⟨n, [], text⟩) :=
  note_eq_settle (m := { m with context := k }) hm h

theorem noteStatement_of_trim {lead text trail : List Char} (hlead : ∀ c ∈ lead, isBlank c = true)
    (htrail : ∀ c ∈ trail, isBlank c = true) (hstart : StartsVisibly text)
    (hend : StartsVisibly text.reverse) :
    noteStatement source s owner m (n, lead ++ (text ++ trail)) =
      Members.note source s owner m (n + width lead, text) := by
  obtain ⟨htrim, htake⟩ := trim_append hlead htrail hstart hend
  have hne : text.isEmpty = false := by
    cases text with
    | nil => simp [StartsVisibly] at hstart
    | cons c text => rfl
  simp [noteStatement, htrim, htake, hne]

theorem noteStatement_of_blank (h : ∀ c ∈ piece, isBlank c = true) :
    noteStatement source s owner m (n, piece) = m := by
  simp [noteStatement, trim_eq_nil h]

theorem readFrom_statement (h : splitStatement 0 (piece ++ ';' :: rest) = (piece, ';' :: rest)) :
    readFrom source s owner m n (piece ++ ';' :: rest) =
      readFrom source s owner (noteStatement source s owner m (n, piece))
        (n + width (piece ++ [';'])) rest := by
  have hwidth : n + width piece + 1 = n + width (piece ++ [';']) := by
    rw [width_append, Nat.add_assoc]
    rfl
  rw [readFrom, statementsFrom_eq, h, List.foldl_cons, hwidth]
  rfl

theorem readFrom_end : readFrom source s owner m n "\n  ".toList = m := by
  have hone : statementsFrom n n 0 [] "\n  ".toList = [(n, "\n  ".toList)] := rfl
  rw [readFrom, hone, List.foldl_cons, List.foldl_nil]
  exact noteStatement_of_blank (List.all_eq_true.mp (by decide))

/-! ## Visibility keywords -/

theorem ends_of_isBlank {cs : List Char} (h : ∀ c ∈ cs, isBlank c = true) :
    cs.head?.any isIdent = false ∧ cs.getLast?.any isIdent = false := by
  have hident : ∀ c ∈ cs, isIdent c = false := fun c hc => isIdent_of_isBlank c (h c hc)
  constructor
  · cases hhead : cs.head? with
    | none => rfl
    | some c => exact hident c (List.mem_of_head? hhead)
  · cases hlast : cs.getLast? with
    | none => rfl
    | some c => exact hident c (List.mem_of_getLast? hlast)

theorem visibility_word (v : Visibility) :
    isIdentifier (tag v).toList = true ∧ IsTame (tag v).toList ∧ StartsVisibly (tag v).toList ∧
      StartsVisibly (tag v).toList.reverse := by
  cases v <;> exact ⟨by decide, .of_word (by decide) (by decide), by decide, by decide⟩

theorem noteStatement_heading_blank {v : Visibility} (hv : v ≠ .packageAccess)
    (hm : m.recordDepth = 0) (h : ∀ c ∈ piece, isBlank c = true) :
    noteStatement source s owner m (n, headingText v ++ piece) =
      { m with context := ⟨v, false, false⟩ } := by
  obtain ⟨hword, htame, hstart, hend⟩ := visibility_word v
  have hnote := MemberContext.note?_visibility { m.context with classLevel := false } hv
  have hgap : ∀ c ∈ "\n  ".toList, isBlank c = true := List.all_eq_true.mp (by decide)
  have hafter : (tag v).toList = (tag v).toList ++ ([] ++ []) := (List.append_nil _).symm
  have hread := MemberContext.read_of_note? (c := ⟨n + width "\n  ".toList, [], (tag v).toList⟩)
    hafter hword hnote (List.forall_mem_nil _) rfl rfl
  rw [headingText, List.append_assoc, noteStatement_of_trim hgap h hstart hend,
    note_eq_settle hm htame, hread, MemberContext.read_of_after_eq_nil _ rfl]
  rfl

theorem noteStatement_heading_text {v : Visibility} (hv : v ≠ .packageAccess)
    (hm : m.recordDepth = 0) {lead text trail : List Char} (hlead : ∀ c ∈ lead, isBlank c = true)
    (htrail : ∀ c ∈ trail, isBlank c = true) (hstart : StartsVisibly text)
    (hend : StartsVisibly text.reverse) (h : IsTame (lead ++ text))
    (hhead : (lead ++ text).head?.any isIdent = false) :
    noteStatement source s owner m (n, headingText v ++ (lead ++ (text ++ trail))) =
      Members.note source s owner { m with context := ⟨v, false, false⟩ }
        (n + width (headingText v) + width lead, text) := by
  obtain ⟨hword, htame, hvisible, -⟩ := visibility_word v
  have hnote := MemberContext.note?_visibility { m.context with classLevel := false } hv
  have hgap : ∀ c ∈ "\n  ".toList, isBlank c = true := List.all_eq_true.mp (by decide)
  have hsplit : headingText v ++ (lead ++ (text ++ trail)) =
      "\n  ".toList ++ (((tag v).toList ++ (lead ++ text)) ++ trail) := by
    simp only [headingText, List.append_assoc]
  have hread := MemberContext.read_of_note?
    (c := ⟨n + width "\n  ".toList, [], (tag v).toList ++ (lead ++ text)⟩) rfl hword hnote hlead
    hstart.head? hhead
  -- what stands in front of the cursor is all that differs
  have hcursor : Cursor.advance ⟨n + width "\n  ".toList, [], (tag v).toList ++ (lead ++ text)⟩
      ((tag v).toList ++ lead) text =
        Cursor.prepend ⟨n + width (headingText v) + width lead, [], text⟩
          ((tag v).toList ++ lead).reverse := by
    simp only [Cursor.advance, Cursor.prepend, headingText, width_append, List.nil_append,
      List.reverseAux_eq, List.append_nil, Nat.add_assoc]
  rw [hsplit, noteStatement_of_trim hgap htrail (hvisible.append _)
      ((hend.reverse_append _).reverse_append _), note_eq_settle hm (htame.append h (.inr hhead)),
    hread, note_with_eq_settle hm (h.of_append (.inl (ends_of_isBlank hlead).2)).2, hcursor,
    MemberContext.read_prepend]
  rfl

theorem noteStatement_heading {v : Visibility} (hv : v ≠ .packageAccess) (hm : m.recordDepth = 0)
    (h : IsTame piece) (hhead : piece.head?.any isIdent = false) :
    noteStatement source s owner m (n, headingText v ++ piece) =
      noteStatement source s owner { m with context := ⟨v, false, false⟩ }
        (n + width (headingText v), piece) := by
  rcases exists_trimmed piece with hblank | ⟨lead, text, trail, rfl, hlead, htrail, hstart, hend⟩
  · rw [noteStatement_heading_blank hv hm hblank, noteStatement_of_blank hblank]
  · have hne : lead ++ text ≠ [] := by
      rintro hnil
      simp [(List.append_eq_nil_iff.mp hnil).2, StartsVisibly] at hstart
    rw [← List.append_assoc] at h hhead
    rw [List.head?_append_of_ne_nil _ hne] at hhead
    have htame := (h.of_append (.inr (ends_of_isBlank htrail).1)).1
    rw [noteStatement_heading_text hv hm hlead htrail hstart hend htame hhead,
      noteStatement_of_trim hlead htrail hstart hend]

/-- A visibility keyword on a line of its own changes nothing but the visibility. -/
theorem readFrom_heading {v : Visibility} (hv : v ≠ .packageAccess) (hm : m.recordDepth = 0)
    (h : IsTame rest) (hhead : rest.head? = some '\n') :
    readFrom source s owner m n (headingText v ++ rest) =
      readFrom source s owner { m with context := ⟨v, false, false⟩ }
        (n + width (headingText v)) rest := by
  have hflat : MadeOf flatMarks (headingText v) := by cases v <;> decide
  have hpiece : (splitStatement 0 rest).1.head?.any isIdent = false := by
    obtain ⟨tail, rfl⟩ := List.head?_eq_some_iff.mp hhead
    exact isIdent_of_mem_bodyMarks '\n' (by decide)
  rw [readFrom, readFrom, statementsFrom_eq, statementsFrom_eq, hflat.splitStatement_append,
    List.foldl_cons, List.foldl_cons, List.reverse_nil, List.nil_append, List.nil_append,
    noteStatement_heading hv hm (isTame_splitStatement h) hpiece, width_append, ← Nat.add_assoc n]

end Statements

end MigrationAudit.Pascal
