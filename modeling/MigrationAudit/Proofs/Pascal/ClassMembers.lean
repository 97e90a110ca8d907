import MigrationAudit.Proofs.Pascal.ClassWords

/-!
# Members read back

A class body is read statement by statement. Each member that is written out is one statement, with
its directives behind it, and a visibility keyword in front of a statement is read before it.
-/

namespace MigrationAudit.Pascal

open Text

variable {a b cs piece rest : List Char}

/-! ## Members are statements -/

def flatMarks : List Char := [' ', '\n', ',', ':']

theorem MadeOf.isBracketFree (h : MadeOf flatMarks cs) : IsBracketFree cs ∧ ';' ∉ cs := by
  have hmarks : IsBracketFree flatMarks := by decide
  refine ⟨fun c hc => ?_, h.not_mem (by decide) (by decide)⟩
  rcases h c hc with hident | hmark
  · exact bracketFree_of_isIdent hident
  · exact hmarks c hmark

theorem MadeOf.splitStatement_append (h : MadeOf flatMarks cs) (rest : List Char) :
    splitStatement 0 (cs ++ rest) =
      (cs ++ (splitStatement 0 rest).1, (splitStatement 0 rest).2) :=
  splitStatement_append_of_isBracketFree 0 h.isBracketFree.1 (.inr h.isBracketFree.2)

theorem splitStatement_indexText {ps : List Param} (h : ∀ p ∈ ps, IsFreeParam p)
    (rest : List Char) :
    splitStatement 0 (indexText ps ++ rest) =
      (indexText ps ++ (splitStatement 0 rest).1, (splitStatement 0 rest).2) := by
  cases ps with
  | nil => rfl
  | cons p ps =>
    have hfree := isBracketFree_groupsText fun q hq => (h q hq).isPlainParam
    have hopen : ∀ cs, splitStatement 0 ('[' :: cs) =
        ('[' :: (splitStatement 1 cs).1, (splitStatement 1 cs).2) := fun _ => rfl
    have hclose : ∀ cs, splitStatement 1 (']' :: cs) =
        (']' :: (splitStatement 0 cs).1, (splitStatement 0 cs).2) := fun _ => rfl
    rw [indexText, List.cons_append, List.append_assoc, hopen,
      splitStatement_append_of_isBracketFree 1 hfree (.inl Nat.one_ne_zero), List.singleton_append,
      hclose]
    · simp
    · simp

theorem splitStatement_front {m : MemberText} (h : m.IsPlain) (rest : List Char) :
    splitStatement 0 (m.front ++ ';' :: rest) = (m.front, ';' :: rest) := by
  have hend : splitStatement 0 (';' :: rest) = ([], ';' :: rest) := rfl
  cases m with
  | fields names typeName =>
    obtain ⟨-, hnames, htype⟩ := h
    have htype : ∀ t ∈ some typeName, IsFreeName t := by simpa using htype
    have hflat : MadeOf flatMarks (listText names ++ typeText (some typeName)) :=
      ((madeOf_listText hnames).mono (by decide)).append
        ((madeOf_typeText htype).mono (by decide))
    rw [MemberText.front_fields, hflat.splitStatement_append, hend, List.append_nil]
  | property name index typeName specifiers =>
    obtain ⟨hname, hindex, htype, hspecifiers⟩ := h
    have hword : MadeOf flatMarks "property ".toList := by decide
    have htail : MadeOf flatMarks (typeText typeName ++ specifiersText specifiers) :=
      ((madeOf_typeText htype).mono (by decide)).append
        ((madeOf_specifiersText hspecifiers).mono (by decide))
    have hsplit : MemberText.front (.property name index typeName specifiers) ++ ';' :: rest =
        ("property ".toList ++ name.toList) ++ (indexText index ++
          ((typeText typeName ++ specifiersText specifiers) ++ ';' :: rest)) := by
      simp only [MemberText.front_property, List.append_assoc]
    rw [hsplit, (hword.append hname.madeOf).splitStatement_append, splitStatement_indexText hindex,
      htail.splitStatement_append, hend, MemberText.front_property]
    simp only [List.append_assoc, List.append_nil]
  | method classLevel header words =>
    have hclass : MadeOf flatMarks (classWord classLevel) := by cases classLevel <;> decide
    rw [MemberText.front_method, List.append_assoc, hclass.splitStatement_append,
      splitStatement_text h.1.isPlain]

/-! ## The ends of a member -/

theorem startsVisibly_of_isIdent (hne : cs ≠ []) (h : ∀ c ∈ cs, isIdent c = true) :
    StartsVisibly cs ∧ StartsVisibly cs.reverse := by
  constructor
  · rw [StartsVisibly, List.head?_eq_some_head hne, Option.any_some,
      isBlank_of_isIdent (h _ (List.head_mem hne))]
    rfl
  · rw [StartsVisibly, List.head?_reverse, List.getLast?_eq_some_getLast hne, Option.any_some,
      isBlank_of_isIdent (h _ (List.getLast_mem hne))]
    rfl

theorem IsFreeName.startsVisibly {n : String} (h : IsFreeName n) :
    StartsVisibly n.toList ∧ StartsVisibly n.toList.reverse := by
  obtain ⟨hne, hident⟩ := isIdent_of_isIdentifier h.identifier
  exact startsVisibly_of_isIdent hne hident

/-- The end of a text stays visible when nothing, or a text with a visible end, is put behind. -/
theorem startsVisibly_reverse_append (ha : StartsVisibly a.reverse)
    (hb : b = [] ∨ StartsVisibly b.reverse) : StartsVisibly (a ++ b).reverse := by
  rcases hb with rfl | hb
  · rwa [List.append_nil]
  · exact hb.reverse_append a

theorem typeText_end {t : Option String} (h : ∀ s ∈ t, IsFreeName s) :
    typeText t = [] ∨ StartsVisibly (typeText t).reverse := by
  cases t with
  | none => exact .inl rfl
  | some t => exact .inr ((h t rfl).startsVisibly.2.reverse_append [':', ' '])

theorem paramsText_end (ps : List Param) :
    paramsText ps = [] ∨ StartsVisibly (paramsText ps).reverse := by
  have hclose : StartsVisibly [')'].reverse := by decide
  cases ps with
  | nil => exact .inl rfl
  | cons p ps => exact .inr (hclose.reverse_append ('(' :: groupsText (p :: ps)))

theorem indexText_end (ps : List Param) :
    indexText ps = [] ∨ StartsVisibly (indexText ps).reverse := by
  have hclose : StartsVisibly [']'].reverse := by decide
  cases ps with
  | nil => exact .inl rfl
  | cons p ps => exact .inr (hclose.reverse_append ('[' :: groupsText (p :: ps)))

theorem specifiersText_end {specifiers : List (String × String)}
    (h : ∀ s ∈ specifiers, s.1 ∈ propertySpecifiers ∧ IsFreeName s.2) :
    specifiersText specifiers = [] ∨ StartsVisibly (specifiersText specifiers).reverse := by
  induction specifiers with
  | nil => exact .inl rfl
  | cons s specifiers ih =>
    obtain ⟨⟨-, hname⟩, hspecifiers⟩ := List.forall_mem_cons.mp h
    have hsplit : specifiersText (s :: specifiers) =
        (' ' :: (s.1.toList ++ [' ']) ++ s.2.toList) ++ specifiersText specifiers := by
      simp [specifiersText]
    rw [hsplit]
    exact .inr (startsVisibly_reverse_append (hname.startsVisibly.2.reverse_append _)
      (ih hspecifiers))

theorem Header.IsMember.ends {h : Header} (hmember : h.IsMember) :
    StartsVisibly h.text ∧ StartsVisibly h.text.reverse := by
  obtain ⟨hne, hident⟩ := isIdent_of_isIdentifier (routineKind?_tag hmember.kind).2.1
  have hsplit : h.text = ((((tag h.kind).toList ++ [' ']) ++ h.name.toList) ++
      paramsText h.params) ++ typeText h.returnType := by
    simp [Header.text, hmember.owner, ownerText]
  have hname := hmember.name.startsVisibly.2.reverse_append ((tag h.kind).toList ++ [' '])
  have hparams := startsVisibly_reverse_append hname (paramsText_end h.params)
  refine ⟨(startsVisibly_of_isIdent hne hident).1.append _, ?_⟩
  rw [hsplit]
  exact startsVisibly_reverse_append hparams (typeText_end hmember.returnType)

theorem front_ends {m : MemberText} (h : m.IsPlain) :
    StartsVisibly m.front ∧ StartsVisibly m.front.reverse := by
  cases m with
  | fields names typeName =>
    obtain ⟨hne, hnames, htype⟩ := h
    obtain ⟨n, ns, rfl⟩ := List.exists_cons_of_ne_nil hne
    have hn := (hnames n List.mem_cons_self).startsVisibly.1
    have htype := htype.startsVisibly.2.reverse_append [':', ' ']
    exact ⟨(hn.append _).append _, htype.reverse_append _⟩
  | property name index typeName specifiers =>
    obtain ⟨hname, -, htype, hspecifiers⟩ := h
    have hsplit : MemberText.front (.property name index typeName specifiers) =
        ((("property ".toList ++ name.toList) ++ indexText index) ++ typeText typeName) ++
          specifiersText specifiers := by
      simp only [MemberText.front_property, List.append_assoc]
    have hname := hname.startsVisibly.2.reverse_append "property ".toList
    have hindex := startsVisibly_reverse_append hname (indexText_end index)
    have htype := startsVisibly_reverse_append hindex (typeText_end htype)
    refine ⟨StartsVisibly.append (by decide) _, ?_⟩
    rw [hsplit]
    exact startsVisibly_reverse_append htype (specifiersText_end hspecifiers)
  | method classLevel header words =>
    obtain ⟨hstart, hend⟩ := h.1.ends
    refine ⟨?_, hend.reverse_append _⟩
    cases classLevel with
    | false => exact hstart
    | true => exact StartsVisibly.append (by decide) _

end MigrationAudit.Pascal
