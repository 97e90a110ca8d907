import MigrationAudit.Proofs.Pascal.ClassMembers
import MigrationAudit.Proofs.Pascal.ClassWords
import MigrationAudit.Proofs.Pascal.EarlierClasses

/-!
# Class heads read back

What stands in front of the body of a class: its name, the keyword and its ancestors. A class
declaration starts with a name in front of an equals sign. So in a text with one equals sign no more
than one class is declared, and the name in front of the sign tells where.
-/

namespace MigrationAudit.Pascal

open Text Source

/-! ## Texts with one class -/

section SoleClass

variable {c d : Cursor} {a b cs name rest : List Char}

theorem IsFreeName.isNameChar {n : String} (h : IsFreeName n) :
    ∀ x ∈ n.toList, isNameChar x = true := fun x hx =>
  (isNameChar_of_ascii (h.toNat_lt hx)).1.trans ((isIdent_of_isIdentifier h.identifier).2 x hx)

/-- What a class introducer is made of, up to its equals sign. -/
theorem exists_of_classIntroduced? (h : classIntroduced? c ≠ none) :
    ∃ run gap rest, c.after = run ++ (gap ++ '=' :: rest) ∧ run ≠ [] ∧
      (∀ x ∈ run, isNameChar x = true) ∧ (∀ x ∈ gap, isBlank x = true) ∧
        c.before.head?.any isNameChar = false := by
  unfold classIntroduced? at h
  split at h
  · next hstart =>
    simp only [Cursor.atRunStart, Bool.and_eq_true, Bool.not_eq_true'] at hstart
    obtain ⟨⟨hhead, hbefore⟩, -⟩ := hstart
    have hequals : (trimStart (c.after.dropWhile isNameChar)).head? = some '=' := by
      by_contra hne
      rw [introduced?_eq, if_neg (by exact hne)] at h
      exact h rfl
    obtain ⟨rest, hrest⟩ := List.head?_eq_some_iff.mp hequals
    have hgap := List.takeWhile_append_dropWhile (p := isBlank) (l := c.after.dropWhile isNameChar)
    have hrun := List.takeWhile_append_dropWhile (p := isNameChar) (l := c.after)
    rw [trimStart] at hrest
    refine ⟨c.after.takeWhile isNameChar, (c.after.dropWhile isNameChar).takeWhile isBlank, rest,
      ?_, ?_, fun x hx => List.mem_takeWhile_imp hx, fun x hx => List.mem_takeWhile_imp hx, hbefore⟩
    · rw [← hrest, hgap, hrun]
    · cases hafter : c.after with
      | nil => simp [hafter] at hhead
      | cons x rest =>
        have hx : isNameChar x = true := by simpa [hafter] using hhead
        simp [hx]
  · exact absurd rfl h

theorem before_of_classIntroduced? (hc : c.text = a ++ '=' :: b) (ha : '=' ∉ a) (hb : '=' ∉ b)
    (h : classIntroduced? c ≠ none) :
    c.before = (a.reverse.dropWhile isBlank).dropWhile isNameChar := by
  obtain ⟨run, gap, rest, hafter, hne, hrun, hgap, hbefore⟩ := exists_of_classIntroduced? h
  have hsplit : (c.before.reverse ++ (run ++ gap)) ++ '=' :: rest = a ++ '=' :: b := by
    rw [← hc, Cursor.text, hafter]
    simp
  obtain ⟨rfl, -, -⟩ := (List.append_cons_inj_of_notMem ha hb).mp hsplit.symm
  have hreverse : (c.before.reverse ++ (run ++ gap)).reverse =
      gap.reverse ++ (run.reverse ++ c.before) := by simp
  have hvisible : (run.reverse ++ c.before).head?.any isBlank = false := by
    rw [List.head?_append_of_ne_nil _ (List.reverse_ne_nil_iff.mpr hne), List.head?_reverse,
      List.getLast?_eq_some_getLast hne, Option.any_some]
    by_contra hblank
    have hname := hrun _ (List.getLast_mem hne)
    rw [isNameChar_of_isBlank (by simpa using hblank)] at hname
    exact Bool.false_ne_true hname
  rw [hreverse, dropWhile_append_of_head? (by simpa using hgap) hvisible,
    dropWhile_append_of_head? (by simpa using hrun) hbefore]

/-- A text with one equals sign holds no introducer but the one that is found. -/
theorem classIntroducers_eq (hrest : rest ≠ []) (htext : cs ++ rest = a ++ '=' :: b)
    (ha : '=' ∉ a) (hb : '=' ∉ b)
    (h : classIntroduced? ⟨width cs, cs.reverse, rest⟩ = some (name, d)) :
    classIntroducers (cs ++ rest) = [⟨⟨width cs, cs.reverse, rest⟩, name, d⟩] := by
  have hhead : (Cursor.mk (width cs) cs.reverse rest).text = a ++ '=' :: b := by
    simp [Cursor.text, htext]
  have hbefore := before_of_classIntroduced? hhead ha hb (by simp [h])
  refine allMatches_eq_singleton hrest h fun c hlead hoffset => ?_
  by_contra hread
  have hstart : (Cursor.ofText (cs ++ rest)).StandsIn (cs ++ rest) := ⟨rfl, List.prefix_refl _⟩
  have hc := before_of_classIntroduced? (hlead.text_eq.trans htext) ha hb hread
  exact hoffset (by rw [(hstart.of_leads hlead).offset_eq, hc, ← hbefore, width_reverse])

end SoleClass

variable {c : Cursor} {text : ClassText} {rest : List Char}

/-! ## Introducers -/

theorem keyword?_of_after (hafter : c.after = "class".toList ++ rest)
    (hrest : rest.head?.any isNameChar = false) :
    keyword? ["class"] c = some (c.advance "class".toList rest) := by
  have hnames : ∀ a ∈ "class".toList, isNameChar a = true :=
    List.all_eq_true.mp (by decide +kernel)
  have hfolds : ["class"].any (foldsTo "class".toList) = true := by decide
  rw [keyword?, hafter, takeWhile_append_of_head? hnames hrest, if_pos hfolds,
    Cursor.skipWhile_of_after hafter hnames hrest]

theorem introduced?_of_after (hafter : c.after = "= class".toList ++ rest)
    (hrest : rest.head?.any isNameChar = false) :
    introduced? ["class"] c = some (c.advance "= class".toList rest) := by
  have hnext : c.next = c.advance ['='] (" class".toList ++ rest) := by
    rw [Cursor.next, hafter]
    rfl
  have hskip : c.next.skipBlank = c.advance "= ".toList ("class".toList ++ rest) := by
    have hblank : ∀ a ∈ [' '], isBlank a = true := List.all_eq_true.mp (by decide)
    have hsplit : (c.advance ['='] (" class".toList ++ rest)).after =
        [' '] ++ ("class".toList ++ rest) := rfl
    rw [hnext, Cursor.skipBlank, Cursor.skipWhile_of_after hsplit hblank rfl,
      Cursor.advance_advance]
    rfl
  have hequals : c.after.head? = some '=' := by
    rw [hafter]
    rfl
  rw [introduced?_eq, if_pos hequals, hskip, packedKeyword?,
    keyword?_of_after (Cursor.after_advance ..) hrest, Cursor.advance_advance]
  rfl

theorem classIntroduced?_of_after {name : String} (hname : IsFreeName name)
    (hafter : c.after = name.toList ++ (" = class".toList ++ rest))
    (hbefore : c.before.head?.any isNameChar = false) (hrest : rest.head?.any isNameChar = false) :
    classIntroduced? c = some (name.toList, c.advance (name.toList ++ " = class".toList) rest) := by
  have hchar : isNameChar ' ' = false := isNameChar_of_isBlank rfl
  have hspace : (" = class".toList ++ rest).head?.any isNameChar = false := hchar
  have hskip : (c.skipWhile isNameChar).skipBlank =
      c.advance (name.toList ++ [' ']) ("= class".toList ++ rest) := by
    have hblank : ∀ a ∈ [' '], isBlank a = true := List.all_eq_true.mp (by decide)
    have hsplit : (c.advance name.toList (" = class".toList ++ rest)).after =
        [' '] ++ ("= class".toList ++ rest) := rfl
    rw [Cursor.skipWhile_of_after hafter hname.isNameChar hspace, Cursor.skipBlank,
      Cursor.skipWhile_of_after hsplit hblank rfl, Cursor.advance_advance]
  have hident := hname.identifier
  obtain ⟨x, xs, hx⟩ := List.exists_cons_of_ne_nil (isIdent_of_isIdentifier hident).1
  have hstart : (c.atRunStart isNameChar && c.after.head?.any isFoldedNameStart) = true := by
    have hxname := hname.isNameChar x (by simp [hx])
    have hxstart : isFoldedNameStart x = true := by
      rw [hx] at hident
      refine (isNameChar_of_ascii (hname.toNat_lt (by simp [hx]))).2 ?_
      exact (Bool.and_eq_true_iff.mp hident).1
    simp [Cursor.atRunStart, hafter, hx, hbefore, hxname, hxstart]
  rw [classIntroduced?, if_pos hstart, hskip, introduced?_of_after (Cursor.after_advance ..) hrest,
    Cursor.advance_advance, hafter, takeWhile_append_of_head? hname.isNameChar hspace,
    Option.map_some, List.append_assoc]
  rfl

/-! ## The first word of a body -/

/-- The words that a class must not begin with. -/
def headWords : List String := ["of", "helper", "abstract", "sealed"]

theorem startsFreeOf_front {m : MemberText} (h : m.IsPlain) : StartsFreeOf headWords m.front := by
  cases m with
  | fields names typeName => exact startsFreeOf_fields (by decide) h
  | property name index typeName specifiers =>
    exact startsFreeOf_property (by decide) name index typeName specifiers
  | method classLevel header words =>
    have hkind : lowered (tag header.kind).toList ∉ headWords := by
      cases header.kind <;> decide
    cases classLevel with
    | false => exact header.startsFreeOf hkind
    | true =>
      exact ⟨"class".toList, ' ' :: header.text, rfl, by decide, by decide, isIdent_space⟩

/-- White space stands in front of the first word of a body. -/
theorem exists_startsFreeOf_body (h : text.IsPlain) :
    ∃ gap cs, text.body ++ "end;".toList = '\n' :: (gap ++ cs) ∧
      (∀ a ∈ gap, isBlank a = true) ∧ StartsFreeOf headWords cs := by
  have hend : isIdent ';' = false := isIdent_of_mem_bodyMarks ';' (by decide)
  -- the body begins with a member, with a visibility keyword, or with the word that ends it
  cases hleading : text.leading with
  | cons t ms =>
    have ht := h.leading t (by simp [hleading])
    let more := t.trailer ++ (membersText ms ++ (sectionsText text.sections ++ "\n  end;".toList))
    have hsplit : text.body ++ "end;".toList =
        '\n' :: ("    ".toList ++ (t.front ++ ';' :: more)) := by
      simp [ClassText.body, hleading, membersText_cons, MemberText.text, more]
    have hmore : (';' :: more).head?.any isIdent = false := hend
    exact ⟨_, _, hsplit, List.all_eq_true.mp (by decide), (startsFreeOf_front ht).append hmore⟩
  | nil =>
    cases hsections : text.sections with
    | nil =>
      have hsplit : text.body ++ "end;".toList = '\n' :: ("  ".toList ++ "end;".toList) := by
        rw [ClassText.body, hleading, hsections]
        rfl
      exact ⟨_, _, hsplit, List.all_eq_true.mp (by decide), "end".toList, [';'], rfl,
        by decide, by decide, hend⟩
    | cons t ss =>
      let more := membersText t.members ++ (sectionsText ss ++ "\n  end;".toList)
      have hsplit : text.body ++ "end;".toList =
          '\n' :: ("  ".toList ++ ((tag t.visibility).toList ++ more)) := by
        simp [ClassText.body, hleading, hsections, sectionsText_cons, headingText, more,
          membersText]
      have hmore : more.head?.any isIdent = false := by
        rw [head?_membersText t.members (head?_sectionsText ss rfl)]
        exact isIdent_of_mem_bodyMarks '\n' (by decide)
      have hword : isIdentifier (tag t.visibility).toList = true ∧
          lowered (tag t.visibility).toList ∉ headWords := by
        cases t.visibility <;> decide
      exact ⟨_, _, hsplit, List.all_eq_true.mp (by decide), _, _, rfl, hword.1, hword.2, hmore⟩

section Heads

variable {gap cs : List Char} (hafter : c.after = gap ++ cs) (hgap : ∀ a ∈ gap, isBlank a = true)
  (h : StartsFreeOf headWords cs)

include hafter hgap h

theorem pastModifiers?_of_startsFreeOf : pastModifiers? c = some c := by
  obtain ⟨word, rest, rfl, hword, hfree, hrest⟩ := h
  obtain ⟨hne, hident⟩ := isIdent_of_isIdentifier hword
  have hadjacent := Cursor.adjacentWord?_of_after hafter hgap hne hident hrest
  have hlower : String.ofList (lowerLatin word) ∉ headWords := hfree
  simp only [headWords, List.mem_cons, List.not_mem_nil, or_false, not_or] at hlower
  rw [pastModifiers?, hadjacent]
  simp only [Word.lower]
  split <;> simp_all

theorem skipBlank_of_startsFreeOf :
    c.skipBlank.after.head? ≠ some '(' ∧ semicolonFollows c = false := by
  obtain ⟨word, rest, rfl, hword, -, -⟩ := h
  obtain ⟨hident, hblank⟩ := @head?_name _ rest hword
  have hskip : c.skipBlank.after = word ++ rest := by
    rw [Cursor.skipBlank, Cursor.skipWhile_of_after hafter hgap hblank, Cursor.after_advance]
  have hmark : ∀ x ∈ bodyMarks, (word ++ rest).head? ≠ some x := fun x hx hhead => by
    rw [hhead, Option.any_some, isIdent_of_mem_bodyMarks x hx] at hident
    exact Bool.false_ne_true hident
  rw [semicolonFollows, hskip]
  exact ⟨hmark '(' (by decide), by simpa using hmark ';' (by decide)⟩

end Heads

/-! ## Ancestors -/

theorem splitTopLevel_listText {names : List String} (h : ∀ n ∈ names, IsFreeName n)
    (hne : names ≠ []) :
    (splitTopLevel ',' (listText names)).map (fun a => String.ofList (squash a)) = names := by
  obtain ⟨n, ns, rfl⟩ := List.exists_cons_of_ne_nil hne
  have hlist : n.toList :: ns.map (·.toList) = (n :: ns).map (·.toList) := rfl
  have hchars : ∀ p ∈ (n :: ns).map (·.toList), p ≠ [] ∧ ∀ a ∈ p, isIdent a = true :=
    List.forall_mem_map.mpr fun m hm => isIdent_of_isIdentifier (h m hm).identifier
  rw [listText, splitTopLevel_separated (by decide) (by decide) (by decide), hlist, List.map_map]
  · refine (List.map_congr_left fun m hm => ?_).trans (List.map_id _)
    obtain ⟨hne, hident⟩ := isIdent_of_isIdentifier (h m hm).identifier
    have hrun := squash_of_run hne fun a ha => isBlank_of_isIdent (hident a ha)
    rw [Function.comp_apply, hrun.1, String.ofList_toList, id]
  all_goals
    rw [hlist]
    intro p hp
    obtain ⟨hne, hident⟩ := hchars p hp
  · exact .of_isBracketFree (isBracketFree_of_isIdent hident)
      (not_mem_of_isIdent (by decide) hident)
  · exact hne
  · exact (startsVisibly_of_isIdent hne hident).1.head?
  · rw [← List.head?_reverse]
    exact (startsVisibly_of_isIdent hne hident).2.head?

theorem head_of_paren (hafter : c.after = '(' :: rest) :
    c.skipBlank = c ∧ pastModifiers? c = some c ∧ semicolonFollows c = false := by
  have hvisible : c.after.head?.any isBlank = false := by
    rw [hafter]
    rfl
  have hskip : c.skipBlank = c := by
    rw [Cursor.skipBlank, Cursor.skipWhile_of_after (List.nil_append _).symm
      (List.forall_mem_nil _) hvisible, Cursor.advance_nil]
  have hparen : isIdent '(' = false := isIdent_of_mem_bodyMarks '(' (by decide)
  have hnone : c.adjacentWord? = none := by
    simp [Cursor.adjacentWord?, Cursor.wordHere, hskip, hafter, hparen]
  refine ⟨hskip, ?_, ?_⟩
  · rw [pastModifiers?, hnone]
  · rw [semicolonFollows, hskip, hafter]
    rfl

theorem ancestors_listText {names : List String} (h : ∀ n ∈ names, IsFreeName n)
    (hne : names ≠ []) (hafter : c.after = '(' :: (listText names ++ ')' :: rest)) :
    ancestors c = (names, c.advance ('(' :: (listText names ++ [')'])) rest) := by
  have hflat : MadeOf flatMarks (listText names) := (madeOf_listText h).mono (by decide)
  have hsplit : splitAtClose? '(' ')' ('(' :: (listText names ++ ')' :: rest)) =
      some ('(' :: listText names, rest) := splitAtClose?_append rfl rfl hflat.isBracketFree.1
  have hskip := (head_of_paren hafter).1
  rw [ancestors_of_splitAtClose? (by rw [hskip, hafter]) hsplit, hskip, List.drop_one,
    List.tail_cons, splitTopLevel_listText h hne, List.cons_append]

theorem ancestors_text {names : List String} (hnames : ∀ n ∈ names, IsFreeName n)
    {gap cs : List Char} (hafter : c.after = ancestorsText names ++ '\n' :: (gap ++ cs))
    (hgap : ∀ a ∈ gap, isBlank a = true) (h : StartsFreeOf headWords cs) :
    pastModifiers? c = some c ∧ semicolonFollows c = false ∧
      ancestors c = (names, c.advance (ancestorsText names) ('\n' :: (gap ++ cs))) := by
  cases names with
  | nil =>
    have hgap : ∀ a ∈ '\n' :: gap, isBlank a = true := List.forall_mem_cons.mpr ⟨rfl, hgap⟩
    have hafter' : c.after = ('\n' :: gap) ++ cs := hafter
    obtain ⟨hparen, hsemicolon⟩ := skipBlank_of_startsFreeOf hafter' hgap h
    have hsame : c.advance (ancestorsText []) ('\n' :: (gap ++ cs)) = c := by
      rw [ancestorsText, ← List.cons_append, ← hafter', Cursor.advance_nil]
    exact ⟨pastModifiers?_of_startsFreeOf hafter' hgap h, hsemicolon,
      by rw [ancestors_of_head? hparen, hsame]⟩
  | cons n ns =>
    have hafter' : c.after = '(' :: (listText (n :: ns) ++ ')' :: ('\n' :: (gap ++ cs))) := by
      simpa [ancestorsText] using hafter
    obtain ⟨-, hpast, hsemicolon⟩ := head_of_paren hafter'
    exact ⟨hpast, hsemicolon, ancestors_listText hnames (List.cons_ne_nil n ns) hafter'⟩

end MigrationAudit.Pascal
