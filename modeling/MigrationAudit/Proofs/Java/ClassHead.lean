import MigrationAudit.Proofs.Java.ClassMembers

/-!
# Heads read back

The clauses of a head begin at its keywords. No name has one of them for a word, so each clause goes
up to the next one, and its names come apart at the commas.
-/

namespace MigrationAudit.Java

open Text Source Cursor
open scoped Listed

variable {a b cs rest : List Char} {c : Cursor} {n : String}

/-! ## Words that start no clause -/

theorem head?_separated (pieces : List (List Char)) :
    (separated ',' pieces ++ [' ']).head?.any isIdent = false := by
  have hcomma : isIdent ',' = false := by decide
  cases pieces with
  | nil => exact isIdent_space
  | cons piece pieces => exact hcomma

def IsClauseFree (cs : List Char) : Prop :=
  ∀ x ∈ (words cs).map (·.text), String.ofList x ∉ clauseWords

namespace IsClauseFree

theorem of_forall (h : ∀ a ∈ cs, isIdent a = false) : IsClauseFree cs := by
  rw [IsClauseFree, words_eq_nil h]
  exact List.forall_mem_nil _

theorem append (ha : IsClauseFree a) (hb : IsClauseFree b)
    (hedge : a.getLast?.any isIdent = false ∨ b.head?.any isIdent = false) :
    IsClauseFree (a ++ b) := by
  rw [IsClauseFree, map_text_words_append hedge]
  exact List.forall_mem_append.mpr ⟨ha, hb⟩

theorem of_append_right (h : IsClauseFree (a ++ b)) (hb : b.head?.any isIdent = false) :
    IsClauseFree b := by
  rw [IsClauseFree, map_text_words_append (.inr hb)] at h
  exact (List.forall_mem_append.mp h).2

theorem of_isName (h : IsName n) : IsClauseFree n.toList := by
  intro x hx hmem
  obtain ⟨w, hw, rfl⟩ := List.mem_map.mp hx
  exact h.free w hw (List.mem_append_right _ hmem)

theorem separated {ns : List String} (h : ∀ n ∈ ns, IsName n) :
    IsClauseFree (separated ',' (ns.map (·.toList)) ++ [' ']) := by
  have hgap : ∀ a ∈ [',', ' '], isIdent a = false := by decide
  induction ns with
  | nil => exact of_forall (by decide)
  | cons n ns ih =>
    obtain ⟨hn, hns⟩ := List.forall_mem_cons.mp h
    have hrest := head?_separated (ns.map (·.toList))
    have hsplit : Text.separated ',' ((n :: ns).map (·.toList)) ++ [' '] =
        [',', ' '] ++ (n.toList ++ (Text.separated ',' (ns.map (·.toList)) ++ [' '])) := by
      simp [Text.separated]
    rw [hsplit]
    exact (of_forall hgap).append ((of_isName hn).append (ih hns) (.inr hrest))
      (.inl isIdent_space)

end IsClauseFree

def namesText (names : List String) : List Char := ' ' :: (listText names ++ [' '])

theorem clauseText_eq (clause : String × List String) :
    clauseText clause = clause.1.toList ++ namesText clause.2 := rfl

theorem isClauseFree_namesText {names : List String} (h : ∀ n ∈ names, IsName n) :
    IsClauseFree (namesText names) := by
  refine IsClauseFree.append (a := [' ']) (.of_forall (by decide)) ?_ (.inl isIdent_space)
  cases names with
  | nil => exact .of_forall (by decide)
  | cons n ns =>
    obtain ⟨hn, hns⟩ := List.forall_mem_cons.mp h
    have hrest := head?_separated (ns.map (·.toList))
    have hsplit : listText (n :: ns) ++ [' '] =
        n.toList ++ (separated ',' (ns.map (·.toList)) ++ [' ']) := List.append_assoc ..
    rw [List.append_eq, hsplit]
    exact (IsClauseFree.of_isName hn).append (.separated hns) (.inr hrest)

/-! ## Where the clauses begin -/

/-- The words at and behind the cursor that start clauses. -/
def clauseStarts (c : Cursor) : List Word :=
  c.words.filter fun w => clauseWords.contains (String.ofList w.text)

theorem clauseStarts_append {front : List Char} (h : IsClauseFree cs)
    (hedge : cs.getLast?.any isIdent = false ∨ rest.head?.any isIdent = false) :
    clauseStarts (between front (cs ++ rest)) = clauseStarts (between (front ++ cs) rest) := by
  have hat : cs = [] ∨ ((between front (cs ++ rest)).advance cs rest).AtEdge := by
    rcases List.eq_nil_or_concat cs with rfl | ⟨init, last, rfl⟩
    · exact .inl rfl
    · refine .inr (hedge.imp (fun hlast => ?_) id)
      rw [head?_before_advance]
      simpa using hlast
  obtain ⟨ws, hws, hspots⟩ := Cursor.exists_words_advance (c := between front (cs ++ rest)) rfl hat
  have hnone : ws.filter (fun w => clauseWords.contains (String.ofList w.text)) = [] := by
    refine List.filter_eq_nil_iff.mpr fun w hw => ?_
    have hmem : w.text ∈ (words cs).map (·.text) := by
      rw [← map_snd_spots (between front (cs ++ rest)).offset, ← hspots, List.map_map]
      exact List.mem_map_of_mem hw
    simpa using h w.text hmem
  rw [clauseStarts, hws, List.filter_append, hnone, List.nil_append, advance_between]
  rfl

theorem isWord_of_mem_clauseWords :
    ∀ w ∈ clauseWords, w.toList ≠ [] ∧ ∀ a ∈ w.toList, isIdent a = true := by decide

theorem clauseStarts_word {front : List Char} {w : String} (hw : w ∈ clauseWords)
    (hrest : rest.head?.any isIdent = false) :
    clauseStarts (between front (w.toList ++ rest)) =
      ⟨between front (w.toList ++ rest), w.toList, between (front ++ w.toList) rest⟩ ::
        clauseStarts (between (front ++ w.toList) rest) := by
  obtain ⟨hne, hident⟩ := isWord_of_mem_clauseWords w hw
  have hafter : (between front (w.toList ++ rest)).after = [] ++ (w.toList ++ rest) := rfl
  have hnext := Cursor.nextWord?_of_after hafter (List.forall_mem_nil _) hne hident hrest
  rw [List.nil_append, advance_between, advance_between, List.append_nil] at hnext
  rw [clauseStarts, Cursor.words_of_nextWord? hnext, List.filter_cons_of_pos]
  · rfl
  · simpa using hw

/-! ## What the clauses say -/

/-- Clauses whose names are written out. -/
def ArePlain (clauses : List (String × List String)) : Prop :=
  ∀ clause ∈ clauses, clause.1 ∈ clauseWords ∧ clause.2 ≠ [] ∧ ∀ n ∈ clause.2, IsName n

theorem head?_clausesText {clauses : List (String × List String)} (h : ArePlain clauses) :
    (clauses.flatMap clauseText).head?.any isBlank = false ∧
      (clauses.flatMap clauseText).head?.any (· == '<') = false := by
  have hwords : ∀ w ∈ clauseWords, w.toList.head?.any isBlank = false ∧
      w.toList.head?.any (· == '<') = false := by decide
  cases clauses with
  | nil => exact ⟨rfl, rfl⟩
  | cons clause clauses =>
    obtain ⟨hword, -⟩ := (List.forall_mem_cons.mp h).1
    rw [List.flatMap_cons, clauseText_eq, List.append_assoc,
      List.head?_append_of_ne_nil _ (isWord_of_mem_clauseWords _ hword).1]
    exact hwords _ hword

theorem clauseStarts_clauseText {clause : String × List String} (hword : clause.1 ∈ clauseWords)
    (hnames : ∀ n ∈ clause.2, IsName n) (front rest : List Char) :
    clauseStarts (between front (clauseText clause ++ rest)) =
      ⟨between front (clauseText clause ++ rest), clause.1.toList,
        between (front ++ clause.1.toList) (namesText clause.2 ++ rest)⟩ ::
      clauseStarts (between (front ++ clauseText clause) rest) := by
  have hlast : (namesText clause.2).getLast?.any isIdent = false := by
    rw [namesText, ← List.cons_append, List.getLast?_concat]
    exact isIdent_space
  have hrest : (namesText clause.2 ++ rest).head?.any isIdent = false := isIdent_space
  rw [clauseText_eq, List.append_assoc, clauseStarts_word hword hrest,
    clauseStarts_append (isClauseFree_namesText hnames) (.inl hlast), List.append_assoc]

theorem slice_clauseText (clause : String × List String) (front rest : List Char) :
    Span.slice ⟨width (front ++ clause.1.toList), width (front ++ clauseText clause)⟩
      (front ++ clauseText clause ++ rest) = namesText clause.2 := by
  have hcut := Span.slice_width (front ++ clause.1.toList) (namesText clause.2) rest
  simpa only [clauseText_eq, List.append_assoc] using hcut

/-- Each clause goes up to the start of the next one, and the last one up to the end. -/
theorem slices_clauseStarts {clauses : List (String × List String)} (h : ArePlain clauses)
    (front : List Char) :
    let all := front ++ clauses.flatMap clauseText
    let starts := clauseStarts (between front (clauses.flatMap clauseText))
    List.zipWith (fun w stop => (String.ofList w.text, Span.slice ⟨w.stop, stop⟩ all)) starts
        ((starts.drop 1).map (·.start) ++ [width all]) =
      clauses.map (fun clause => (clause.1, namesText clause.2)) ∧
    (starts.map (·.start) ++ [width all]).head? = some (width front) := by
  -- On the clauses: where the rest of them starts, the first one stops.
  induction clauses generalizing front with
  | nil =>
    have hnone : clauseStarts (between front []) = [] := by
      rw [clauseStarts, Cursor.words_of_nextWord?_eq_none (nextWord?_eq_none_iff.mpr (by simp))]
      rfl
    simp [hnone]
  | cons clause clauses ih =>
    obtain ⟨⟨hword, -, hnames⟩, hclauses⟩ := List.forall_mem_cons.mp h
    obtain ⟨hslices, hhead⟩ := ih hclauses (front ++ clauseText clause)
    have hslice := slice_clauseText clause front (clauses.flatMap clauseText)
    have hall : front ++ (clause :: clauses).flatMap clauseText =
        front ++ clauseText clause ++ clauses.flatMap clauseText := by
      rw [List.flatMap_cons, List.append_assoc]
    rw [hall, List.flatMap_cons, clauseStarts_clauseText hword hnames]
    simp only [List.drop_succ_cons, List.drop_zero, List.map_cons, ← hslices]
    refine ⟨?_, rfl⟩
    cases hnext : clauseStarts (between (front ++ clauseText clause)
        (clauses.flatMap clauseText)) with
    | nil =>
      rw [hnext] at hhead
      obtain hstop := Option.some.inj hhead
      simp only [List.map_nil, List.nil_append, List.zipWith_cons_cons, List.zipWith_nil_left]
      rw [hstop]
      simp only [Word.stop, offset_between, hslice, String.ofList_toList]
    | cons w ws =>
      rw [hnext] at hhead
      obtain hstop : w.start = _ := Option.some.inj hhead
      simp only [List.map_cons, List.cons_append, List.zipWith_cons_cons, hstop, Word.stop,
        offset_between, hslice, String.ofList_toList, List.drop_succ_cons, List.drop_zero]

theorem clauses_append {clauses : List (String × List String)} (hfree : IsClauseFree cs)
    (hedge : cs.getLast?.any isIdent = false) (h : ArePlain clauses) :
    Java.clauses (cs ++ clauses.flatMap clauseText) =
      clauses.map fun clause => (clause.1, namesText clause.2) := by
  have hstarts :=
    @clauseStarts_append cs (clauses.flatMap clauseText) [] hfree (.inl hedge)
  have hslices := (slices_clauseStarts h cs).1
  rw [List.nil_append] at hstarts
  simp only [← hstarts] at hslices
  exact hslices

theorem namedTypes_namesText {names : List String} (hne : names ≠ [])
    (h : ∀ n ∈ names, IsName n) : namedTypes (namesText names) = names := by
  obtain ⟨n, ns, rfl⟩ := List.exists_cons_of_ne_nil hne
  have hlist : n.toList :: ns.map (·.toList) = (n :: ns).map (·.toList) := rfl
  have hpieces : splitTopLevel ',' (listText (n :: ns)) = (n :: ns).map (·.toList) := by
    rw [listText, splitTopLevel_separated (by decide) (by decide) (by decide), hlist]
    all_goals
      rw [hlist, List.forall_mem_map]
      intro m hm
    · exact (h m hm).isPiece
    · exact (h m hm).ne_nil
    · exact (h m hm).ends.1
    · exact (h m hm).ends.2
  have hrecord : ∀ m ∈ n :: ns, squashed? (before '<' m.toList) = some m := by
    intro m hm
    have hbefore : before '<' m.toList = m.toList := by
      refine List.takeWhile_eq_self_iff.mpr fun a ha => ?_
      rw [bne_iff_ne]
      rintro rfl
      exact (h m hm).not_mem (by decide) ha
    have hsquash := (squash_of_run (h m hm).ne_nil fun a ha => (h m hm).isBlank ha).1
    rw [hbefore, squashed?_of_squash (h m hm).ne_nil hsquash]
  rw [namedTypes, namesText, splitTopLevel_spaces (by decide), hpieces, List.filterMap_map]
  exact (List.filterMap_congr hrecord).trans List.filterMap_some

namespace ClassText

variable {t : ClassText}

theorem arePlain_clauses (h : t.IsPlain) : ArePlain t.clauses := by
  intro clause hclause
  obtain ⟨hmem, hne⟩ := List.mem_filter.mp hclause
  simp only [List.mem_cons, List.not_mem_nil, or_false] at hmem
  have hne : clause.2 ≠ [] := by simpa using hne
  rcases hmem with rfl | rfl
  · have hword : "extends" ∈ clauseWords := by decide
    exact ⟨hword, hne, fun n hn => h.parent n (by simpa using hn)⟩
  · have hword : "implements" ∈ clauseWords := by decide
    exact ⟨hword, hne, h.interfaces⟩

theorem foldl_note_clauses (h : t.IsPlain) :
    (t.clauses.map fun clause => (clause.1, namesText clause.2)).foldl
      (Ancestry.note .classType) {} = ⟨t.parent, t.interfaces⟩ := by
  obtain ⟨name, parent, interfaces, members⟩ := t
  have hparent : ∀ p ∈ parent, namedTypes (namesText [p]) = [p] := fun p hp =>
    namedTypes_namesText (List.cons_ne_nil _ _) (List.forall_mem_singleton.mpr (h.parent p hp))
  have hinterfaces : interfaces ≠ [] → namedTypes (namesText interfaces) = interfaces := fun hne =>
    namedTypes_namesText hne h.interfaces
  rcases parent with _ | p
  all_goals
    rcases interfaces with _ | ⟨i, is⟩
    all_goals simp_all [clauses, Ancestry.note]

def dollar (t : ClassText) : List Char := t.name.toList.dropWhile (· != '$')

theorem word_append_dollar (t : ClassText) : t.word ++ t.dollar = t.name.toList :=
  List.takeWhile_append_dropWhile

theorem dollar_cases (t : ClassText) : t.dollar = [] ∨ ∃ cs, t.dollar = '$' :: cs := by
  cases hdollar : t.dollar with
  | nil => exact .inl rfl
  | cons a cs =>
    have hhead := head?_any_dropWhile (· != '$') t.name.toList
    have hdrop : t.name.toList.dropWhile (· != '$') = a :: cs := hdollar
    rw [hdrop] at hhead
    obtain rfl : a = '$' := by simpa using hhead
    exact .inr ⟨cs, rfl⟩

theorem head?_dollar_append (t : ClassText) (hrest : rest.head?.any isIdent = false) :
    (t.dollar ++ rest).head?.any isIdent = false := by
  have hident : isIdent '$' = false := by decide
  obtain hdollar | ⟨cs, hdollar⟩ := t.dollar_cases
  · rwa [hdollar]
  · rw [hdollar]
    exact hident

theorem head?_dollar (t : ClassText) : t.dollar.head?.any isIdent = false := by
  have hhead := @head?_dollar_append [] t rfl
  rwa [List.append_nil] at hhead

theorem isClauseFree_dollar (h : t.IsPlain) : IsClauseFree t.dollar := by
  have hname := IsClauseFree.of_isName h.name
  rw [← t.word_append_dollar] at hname
  exact hname.of_append_right t.head?_dollar

/-- What is behind the word that is read is white space, or a dollar sign and what follows it, in
front of the clauses. -/
theorem exists_lead (h : t.IsPlain) : ∃ gap lead,
    t.dollar ++ t.head = gap ++ (lead ++ t.clauses.flatMap clauseText) ∧
      (∀ a ∈ gap, isBlank a = true) ∧ IsClauseFree lead ∧
      lead.getLast?.any isIdent = false ∧
      (lead ++ t.clauses.flatMap clauseText).head?.any isBlank = false ∧
      (lead ++ t.clauses.flatMap clauseText).head?.any (· == '<') = false := by
  obtain hdollar | ⟨cs, hdollar⟩ := t.dollar_cases
  · obtain ⟨hblank, hangle⟩ := head?_clausesText (arePlain_clauses h)
    refine ⟨[' '], [], ?_, by decide, .of_forall (by decide), rfl, hblank, hangle⟩
    rw [hdollar]
    rfl
  · refine ⟨[], t.dollar ++ [' '], ?_, List.forall_mem_nil _, ?_, ?_, ?_, ?_⟩
    · rw [head, List.append_assoc]
      rfl
    · exact (isClauseFree_dollar h).append (.of_forall (by decide)) (.inr isIdent_space)
    · rw [List.getLast?_concat]
      exact isIdent_space
    · rw [hdollar]
      rfl
    · rw [hdollar]
      rfl

/-- The head of a class that is written out names its ancestors. -/
theorem read_head (h : t.IsPlain) (source : Masked) (front : List Char) :
    TypeHead.read source .classType (between front (t.dollar ++ t.head)) =
      ⟨⟨t.parent, t.interfaces⟩, []⟩ := by
  obtain ⟨gap, lead, hsplit, hgap, hfree, hedge, hblank, hangle⟩ := exists_lead h
  have hskip : (between front (t.dollar ++ t.head)).skipBlank =
      between (front ++ gap) (lead ++ t.clauses.flatMap clauseText) := by
    rw [Cursor.skipBlank, Cursor.skipWhile_of_after hsplit hgap hblank, advance_between]
  unfold TypeHead.read
  simp only [hskip, after_between]
  split
  · next heq => simp [heq] at hangle
  · rw [after_between, clauses_append hfree hedge (arePlain_clauses h), foldl_note_clauses h]

end ClassText

end MigrationAudit.Java
