import MigrationAudit.Proofs.Pascal.ClassText

/-!
# Characters and words of classes

A class is written with identifier characters and a few marks, and between its keyword and its end
no word stands that ends a class.
-/

namespace MigrationAudit.Pascal

open Text

variable {a b cs : List Char}

/-! ## Characters -/

/-- A text of identifier characters and the given marks. -/
def MadeOf (marks cs : List Char) : Prop := ∀ c ∈ cs, isIdent c = true ∨ c ∈ marks

instance (marks cs : List Char) : Decidable (MadeOf marks cs) := List.decidableBAll _ cs

namespace MadeOf

variable {marks marks' : List Char}

theorem nil : MadeOf marks [] := List.forall_mem_nil _

theorem singleton {c : Char} (hc : c ∈ marks) : MadeOf marks [c] :=
  List.forall_mem_singleton.mpr (.inr hc)

theorem append (ha : MadeOf marks a) (hb : MadeOf marks b) : MadeOf marks (a ++ b) :=
  List.forall_mem_append.mpr ⟨ha, hb⟩

theorem mono (h : MadeOf marks cs) (hsub : marks ⊆ marks') : MadeOf marks' cs :=
  fun c hc => (h c hc).imp_right (hsub ·)

theorem of_isIdent (h : ∀ c ∈ cs, isIdent c = true) : MadeOf marks cs := fun c hc => .inl (h c hc)

theorem of_isIdentifier (h : isIdentifier cs = true) : MadeOf marks cs :=
  of_isIdent (isIdent_of_isIdentifier h).2

theorem flatMap {α : Type} {f : α → List Char} {xs : List α} (h : ∀ x ∈ xs, MadeOf marks (f x)) :
    MadeOf marks (xs.flatMap f) := by
  intro c hc
  obtain ⟨x, hx, hc⟩ := List.mem_flatMap.mp hc
  exact h x hx c hc

theorem not_mem (h : MadeOf marks cs) {c : Char} (hident : isIdent c = false) (hmark : c ∉ marks) :
    c ∉ cs := fun hc => by
  rcases h c hc with hc | hc
  · simp [hident] at hc
  · exact hmark hc

end MadeOf

def lineMarks : List Char := [' ', '(', ')', '[', ']', ',', ':', ';']

def bodyMarks : List Char := '\n' :: lineMarks

theorem isIdent_of_mem_bodyMarks : ∀ c ∈ bodyMarks, isIdent c = false := by
  have hall : (bodyMarks.all fun c => !isIdent c) = true := by decide
  simpa using hall

theorem IsFreeName.madeOf {marks : List Char} {n : String} (h : IsFreeName n) :
    MadeOf marks n.toList := .of_isIdentifier h.identifier

theorem madeOf_separated {marks : List Char} {sep : Char} {pieces : List (List Char)}
    (hsep : MadeOf marks [sep, ' ']) (h : ∀ p ∈ pieces, MadeOf marks p) :
    MadeOf marks (separated sep pieces) := .flatMap fun p hp => hsep.append (h p hp)

theorem madeOf_listText {ns : List String} (h : ∀ n ∈ ns, IsFreeName n) :
    MadeOf [',', ' '] (listText ns) := by
  cases ns with
  | nil => exact .nil
  | cons n ns =>
    obtain ⟨hn, hns⟩ := List.forall_mem_cons.mp h
    exact hn.madeOf.append (madeOf_separated (by decide)
      (List.forall_mem_map.mpr fun m hm => (hns m hm).madeOf))

theorem madeOf_typeText {t : Option String} (h : ∀ s ∈ t, IsFreeName s) :
    MadeOf [':', ' '] (typeText t) := by
  have hcolon : MadeOf [':', ' '] [':', ' '] := by decide
  cases t with
  | none => exact .nil
  | some t => exact hcolon.append (h t rfl).madeOf

theorem madeOf_paramText {p : Param} (h : IsFreeParam p) : MadeOf [':', ' '] (paramText p) := by
  have hspace : MadeOf [':', ' '] [' '] := by decide
  refine MadeOf.append ?_ (h.name.madeOf.append (madeOf_typeText h.typeName))
  cases hm : p.modifier with
  | none => exact .nil
  | some m =>
    exact (MadeOf.of_isIdentifier (lowered_modifier (h.modifier m hm)).2).append hspace

theorem madeOf_groupsText {ps : List Param} (h : ∀ p ∈ ps, IsFreeParam p) :
    MadeOf [':', ' ', ';'] (groupsText ps) := by
  have hparam : ∀ p ∈ ps, MadeOf [':', ' ', ';'] (paramText p) := fun p hp =>
    (madeOf_paramText (h p hp)).mono (by decide)
  cases ps with
  | nil => exact .nil
  | cons p ps =>
    obtain ⟨hp, hps⟩ := List.forall_mem_cons.mp hparam
    exact hp.append (madeOf_separated (by decide) (List.forall_mem_map.mpr hps))

theorem madeOf_paramsText {ps : List Param} (h : ∀ p ∈ ps, IsFreeParam p) :
    MadeOf lineMarks (paramsText ps) ∧ MadeOf lineMarks (indexText ps) := by
  have hgroups : MadeOf lineMarks (groupsText ps) := (madeOf_groupsText h).mono (by decide)
  cases ps with
  | nil => exact ⟨.nil, .nil⟩
  | cons p ps =>
    exact ⟨(MadeOf.singleton (by decide)).append (hgroups.append (.singleton (by decide))),
      (MadeOf.singleton (by decide)).append (hgroups.append (.singleton (by decide)))⟩

theorem madeOf_headerText {h : Header} (hmember : h.IsMember) : MadeOf lineMarks h.text := by
  have hspace : MadeOf lineMarks [' '] := by decide
  have htype : MadeOf lineMarks (typeText h.returnType) :=
    (madeOf_typeText hmember.returnType).mono (by decide)
  rw [Header.text, hmember.owner]
  exact (MadeOf.of_isIdentifier (routineKind?_tag hmember.kind).2.1).append (hspace.append
    (hmember.name.madeOf.append ((madeOf_paramsText hmember.params).1.append htype)))

theorem madeOf_specifiersText {specifiers : List (String × String)}
    (h : ∀ s ∈ specifiers, s.1 ∈ propertySpecifiers ∧ IsFreeName s.2) :
    MadeOf [' '] (specifiersText specifiers) := by
  have hspace : MadeOf [' '] [' '] := by decide
  have hall : ∀ w ∈ propertySpecifiers, MadeOf [' '] w.toList := by decide
  refine .flatMap fun s hs => ?_
  obtain ⟨hword, hname⟩ := h s hs
  exact hspace.append ((hall s.1 hword).append (hspace.append hname.madeOf))

theorem madeOf_directivesText {words : List String} (h : ∀ d ∈ words, d ∈ directives) :
    MadeOf [' ', ';'] (directivesText words) := by
  have hall : ∀ d ∈ directives, MadeOf [' ', ';'] (' ' :: (d.toList ++ [';'])) := by decide
  exact .flatMap fun d hd => hall d (h d hd)

theorem madeOf_front {m : MemberText} (h : m.IsPlain) :
    MadeOf lineMarks m.front ∧ MadeOf lineMarks m.trailer := by
  cases m with
  | fields names typeName =>
    obtain ⟨-, hnames, htype⟩ := h
    have htype : ∀ t ∈ some typeName, IsFreeName t := by simpa using htype
    exact ⟨((madeOf_listText hnames).mono (by decide)).append
      ((madeOf_typeText htype).mono (by decide)), .nil⟩
  | property name index typeName specifiers =>
    obtain ⟨hname, hindex, htype, hspecifiers⟩ := h
    have hword : MadeOf lineMarks "property ".toList := by decide
    have htail : MadeOf lineMarks (typeText typeName ++ specifiersText specifiers) :=
      ((madeOf_typeText htype).mono (by decide)).append
        ((madeOf_specifiersText hspecifiers).mono (by decide))
    exact ⟨hword.append (hname.madeOf.append ((madeOf_paramsText hindex).2.append htail)), .nil⟩
  | method classLevel header words =>
    have hclass : MadeOf lineMarks (classWord classLevel) := by cases classLevel <;> decide
    exact ⟨hclass.append (madeOf_headerText h.1), (madeOf_directivesText h.2).mono (by decide)⟩

theorem madeOf_membersText {ms : List MemberText} (h : ∀ m ∈ ms, m.IsPlain) :
    MadeOf bodyMarks (membersText ms) := by
  have hgap : MadeOf bodyMarks "\n    ".toList := by decide
  have hsemicolon : MadeOf bodyMarks [';'] := by decide
  refine .flatMap fun m hm => hgap.append ?_
  obtain ⟨hfront, htrailer⟩ := madeOf_front (h m hm)
  exact (hfront.mono fun c hc => List.mem_cons_of_mem _ hc).append
    (hsemicolon.append (htrailer.mono fun c hc => List.mem_cons_of_mem _ hc))

theorem madeOf_body {c : ClassText} (h : c.IsPlain) : MadeOf bodyMarks c.body := by
  have hheading : ∀ v, MadeOf bodyMarks (headingText v) := by
    intro v
    cases v <;> decide
  have hend : MadeOf bodyMarks "\n  ".toList := by decide
  have hsections : MadeOf bodyMarks (sectionsText c.sections) := .flatMap fun s hs =>
    (hheading s.visibility).append (madeOf_membersText (h.sections s hs).members)
  exact (madeOf_membersText h.leading).append (hsections.append hend)

/-! ## Texts without words that end a class -/

/-- The words, in lower case, that matter to the scan of a class body. -/
def blockWords : List String :=
  ["end", "record", "begin", "implementation", "initialization", "finalization"]

/-- A text with none of the words that matter to the scan of a class body. -/
def IsTame (cs : List Char) : Prop := ∀ t ∈ (words cs).map (·.text), lowered t ∉ blockWords

namespace IsTame

theorem append (ha : IsTame a) (hb : IsTame b)
    (h : a.getLast?.any isIdent = false ∨ b.head?.any isIdent = false) : IsTame (a ++ b) := by
  rw [IsTame, map_text_words_append h]
  exact List.forall_mem_append.mpr ⟨ha, hb⟩

theorem of_append (h : IsTame (a ++ b))
    (hedge : a.getLast?.any isIdent = false ∨ b.head?.any isIdent = false) :
    IsTame a ∧ IsTame b := by
  rw [IsTame, map_text_words_append hedge] at h
  exact List.forall_mem_append.mp h

theorem of_isIdent_eq_false (h : ∀ c ∈ cs, isIdent c = false) : IsTame cs := by
  rw [IsTame, words_eq_nil h]
  exact List.forall_mem_nil _

theorem nil : IsTame [] := of_isIdent_eq_false (List.forall_mem_nil _)

theorem cons {c : Char} (hc : isIdent c = false) (h : IsTame cs) : IsTame (c :: cs) :=
  (of_isIdent_eq_false (List.forall_mem_singleton.mpr hc)).append h (.inl hc)

theorem append_cons {c : Char} (ha : IsTame a) (hc : isIdent c = false) (hb : IsTame b) :
    IsTame (a ++ c :: b) := ha.append (hb.cons hc) (.inr hc)

theorem of_isBlank (h : cs.all isBlank = true) : IsTame cs :=
  of_isIdent_eq_false fun c hc => isIdent_of_isBlank c (List.all_eq_true.mp h c hc)

theorem of_word (h : isIdentifier cs = true) (hfree : lowered cs ∉ blockWords) : IsTame cs := by
  obtain ⟨hne, hident⟩ := isIdent_of_isIdentifier h
  rw [IsTame, map_text_words_of_word hne hident]
  exact List.forall_mem_singleton.mpr hfree

end IsTame

theorem IsFreeName.isTame {n : String} (h : IsFreeName n) : IsTame n.toList :=
  .of_word h.identifier (h.not_mem_of_subset (by decide))

theorem head?_separated {sep : Char} (hsep : isIdent sep = false) (pieces : List (List Char)) :
    (separated sep pieces).head?.any isIdent = false := by
  cases pieces with
  | nil => rfl
  | cons piece pieces => exact hsep

theorem isTame_separated {sep : Char} (hsep : isIdent sep = false) {pieces : List (List Char)}
    (h : ∀ p ∈ pieces, IsTame p) : IsTame (separated sep pieces) := by
  induction pieces with
  | nil => exact .nil
  | cons piece pieces ih =>
    obtain ⟨hpiece, hpieces⟩ := List.forall_mem_cons.mp h
    have hrest := hpiece.append (ih hpieces) (.inr (head?_separated hsep pieces))
    exact (hrest.cons (by decide)).cons hsep

theorem isTame_listText {ns : List String} (h : ∀ n ∈ ns, IsFreeName n) : IsTame (listText ns) := by
  cases ns with
  | nil => exact .nil
  | cons n ns =>
    obtain ⟨hn, hns⟩ := List.forall_mem_cons.mp h
    refine hn.isTame.append (isTame_separated (by decide) ?_) (.inr (head?_separated (by decide) _))
    exact List.forall_mem_map.mpr fun m hm => (hns m hm).isTame

theorem isTame_typeText {t : Option String} (h : ∀ s ∈ t, IsFreeName s) : IsTame (typeText t) := by
  cases t with
  | none => exact .nil
  | some t => exact ((h t rfl).isTame.cons (by decide)).cons (by decide)

theorem isTame_paramText {p : Param} (h : IsFreeParam p) : IsTame (paramText p) := by
  have hrest : IsTame (p.name.toList ++ typeText p.typeName) :=
    h.name.isTame.append (isTame_typeText h.typeName) (.inr (head?_typeText _).1)
  cases hm : p.modifier with
  | none =>
    rw [paramText, hm]
    exact hrest
  | some m =>
    have hall : ∀ m ∈ paramModifiers, lowered m.toList ∉ blockWords := by decide
    have hword := IsTame.of_word (lowered_modifier (h.modifier m hm)).2 (hall m (h.modifier m hm))
    rw [paramText, hm, modifierText, List.append_assoc]
    exact hword.append_cons (by decide) hrest

theorem isTame_groupsText {ps : List Param} (h : ∀ p ∈ ps, IsFreeParam p) :
    IsTame (groupsText ps) := by
  cases ps with
  | nil => exact .nil
  | cons p ps =>
    obtain ⟨hp, hps⟩ := List.forall_mem_cons.mp h
    refine (isTame_paramText hp).append (isTame_separated (by decide) ?_)
      (.inr (head?_separated (by decide) _))
    exact List.forall_mem_map.mpr fun q hq => isTame_paramText (hps q hq)

theorem isTame_paramsText {ps : List Param} (h : ∀ p ∈ ps, IsFreeParam p) :
    IsTame (paramsText ps) ∧ IsTame (indexText ps) := by
  cases ps with
  | nil => exact ⟨.nil, .nil⟩
  | cons p ps =>
    have hgroups := isTame_groupsText h
    exact ⟨(hgroups.append_cons (by decide) .nil).cons (by decide),
      (hgroups.append_cons (by decide) .nil).cons (by decide)⟩

theorem isTame_headerText {h : Header} (hmember : h.IsMember) : IsTame h.text := by
  have hkind : IsTame (tag h.kind).toList := by
    have hkind := hmember.kind
    cases hk : h.kind with
    | method => exact absurd hk hkind
    | _ => exact .of_word (by decide) (by decide)
  have hparams := (isTame_paramsText hmember.params).1
  have htype := isTame_typeText hmember.returnType
  have hhead : (paramsText h.params ++ typeText h.returnType).head?.any isIdent = false := by
    have hpart := (head?_paramsText h).1
    cases hcs : (paramsText h.params ++ typeText h.returnType).head? with
    | none => rfl
    | some c =>
      rw [hcs] at hpart
      exact (Bool.or_eq_false_iff.mp hpart).1
  have hname := hmember.name.isTame.append (hparams.append htype (.inr (head?_typeText _).1))
    (.inr hhead)
  rw [Header.text, hmember.owner]
  exact hkind.append_cons (by decide) hname

theorem isTame_specifiersText {specifiers : List (String × String)}
    (h : ∀ s ∈ specifiers, s.1 ∈ propertySpecifiers ∧ IsFreeName s.2) :
    IsTame (specifiersText specifiers) ∧
      (specifiersText specifiers).head?.any isIdent = false := by
  have hall : ∀ w ∈ propertySpecifiers,
      isIdentifier w.toList = true ∧ lowered w.toList ∉ blockWords := by decide
  induction specifiers with
  | nil => exact ⟨.nil, rfl⟩
  | cons s specifiers ih =>
    obtain ⟨⟨hword, hname⟩, hspecifiers⟩ := List.forall_mem_cons.mp h
    obtain ⟨hident, hfree⟩ := hall s.1 hword
    obtain ⟨hrest, hhead⟩ := ih hspecifiers
    have hfirst : IsTame (s.1.toList ++ ' ' :: s.2.toList) :=
      (IsTame.of_word hident hfree).append_cons (by decide) hname.isTame
    have hspace : isIdent ' ' = false := isIdent_space
    refine ⟨?_, hspace⟩
    rw [specifiersText, List.flatMap_cons]
    exact (hfirst.cons (by decide)).append hrest (.inr hhead)

theorem isTame_directivesText {words : List String} (h : ∀ d ∈ words, d ∈ directives) :
    IsTame (directivesText words) := by
  have hall : ∀ d ∈ directives, isIdentifier d.toList = true ∧ lowered d.toList ∉ blockWords := by
    decide
  induction words with
  | nil => exact .nil
  | cons d words ih =>
    obtain ⟨hd, hwords⟩ := List.forall_mem_cons.mp h
    obtain ⟨hident, hfree⟩ := hall d hd
    have hfirst : IsTame (d.toList ++ ';' :: directivesText words) :=
      (IsTame.of_word hident hfree).append_cons (by decide) (ih hwords)
    rw [directivesText, List.flatMap_cons, List.cons_append, List.append_assoc]
    exact hfirst.cons (by decide)

theorem head?_indexText (ps : List Param) (t : Option String) {rest : List Char}
    (hrest : rest.head?.any isIdent = false) :
    (indexText ps ++ (typeText t ++ rest)).head?.any isIdent = false := by
  cases ps with
  | cons p ps => exact isIdent_of_mem_bodyMarks '[' (by decide)
  | nil =>
    cases t with
    | some t => exact isIdent_of_mem_bodyMarks ':' (by decide)
    | none => exact hrest

theorem isTame_front {m : MemberText} (h : m.IsPlain) : IsTame m.front := by
  cases m with
  | fields names typeName =>
    obtain ⟨-, hnames, htype⟩ := h
    have htype : ∀ t ∈ some typeName, IsFreeName t := by simpa using htype
    exact (isTame_listText hnames).append (isTame_typeText htype) (.inr (head?_typeText _).1)
  | property name index typeName specifiers =>
    obtain ⟨hname, hindex, htype, hspecifiers⟩ := h
    obtain ⟨hspec, hhead⟩ := isTame_specifiersText hspecifiers
    have htail := (isTame_typeText htype).append hspec (.inr hhead)
    have hbrackets := (isTame_paramsText hindex).2.append htail
      (.inr (head?_indexText [] typeName hhead))
    have hword : IsTame "property".toList := .of_word (by decide) (by decide)
    have hword : IsTame "property ".toList := hword.append_cons isIdent_space .nil
    exact hword.append (hname.isTame.append hbrackets (.inr (head?_indexText index typeName hhead)))
      (.inl isIdent_space)
  | method classLevel header words =>
    have hclass : IsTame (classWord classLevel) ∧
        (classWord classLevel).getLast?.any isIdent = false := by
      cases classLevel with
      | false => exact ⟨.nil, rfl⟩
      | true =>
        have hword : IsTame "class".toList := .of_word (by decide) (by decide)
        exact ⟨hword.append_cons isIdent_space .nil, isIdent_space⟩
    exact hclass.1.append (isTame_headerText h.1) (.inl hclass.2)

theorem isTame_trailer {m : MemberText} (h : m.IsPlain) : IsTame m.trailer := by
  cases m with
  | method classLevel header words => exact isTame_directivesText h.2
  | _ => exact .nil

/-! ## First words -/

/-- The text starts with a word that is none of the given words. -/
def StartsFreeOf (words : List String) (cs : List Char) : Prop :=
  ∃ word rest, cs = word ++ rest ∧ isIdentifier word = true ∧ lowered word ∉ words ∧
    rest.head?.any isIdent = false

theorem StartsFreeOf.append {words : List String} (h : StartsFreeOf words a)
    (hb : b.head?.any isIdent = false) : StartsFreeOf words (a ++ b) := by
  obtain ⟨word, rest, rfl, hword, hfree, hrest⟩ := h
  refine ⟨word, rest ++ b, List.append_assoc .., hword, hfree, ?_⟩
  cases rest with
  | nil => exact hb
  | cons x rest => exact hrest

theorem head?_behindName (ns : List String) (t : String) :
    (separated ',' (ns.map (·.toList)) ++ typeText (some t)).head?.any isIdent = false := by
  cases ns <;> exact isIdent_of_mem_bodyMarks _ (by decide)

theorem startsFreeOf_fields {words : List String} (hwords : words ⊆ reserved) {names : List String}
    {t : String} (h : (MemberText.fields names t).IsPlain) :
    StartsFreeOf words (MemberText.fields names t).front := by
  obtain ⟨hne, hnames, -⟩ := h
  obtain ⟨n, ns, rfl⟩ := List.exists_cons_of_ne_nil hne
  have hn := hnames n List.mem_cons_self
  rw [MemberText.front_fields, listText, List.append_assoc]
  exact ⟨n.toList, _, rfl, hn.identifier, hn.not_mem_of_subset hwords, head?_behindName ns t⟩

theorem startsFreeOf_property {words : List String} (hwords : "property" ∉ words) (name : String)
    (index : List Param) (typeName : Option String) (specifiers : List (String × String)) :
    StartsFreeOf words (MemberText.property name index typeName specifiers).front := by
  have hlower : lowered "property".toList = "property" := by decide
  exact ⟨"property".toList, _, rfl, by decide, hlower ▸ hwords, isIdent_space⟩

theorem Header.startsFreeOf {words : List String} (h : Header)
    (hwords : lowered (tag h.kind).toList ∉ words) : StartsFreeOf words h.text := by
  have hkind : isIdentifier (tag h.kind).toList = true := by
    cases h.kind <;> decide
  exact ⟨_, _, rfl, hkind, hwords, isIdent_space⟩

/-! ## Lines -/

theorem head?_membersText (ms : List MemberText) {rest : List Char}
    (hrest : rest.head? = some '\n') : (membersText ms ++ rest).head? = some '\n' := by
  cases ms with
  | nil => exact hrest
  | cons m ms => rfl

theorem head?_sectionsText (ss : List SectionText) {rest : List Char}
    (hrest : rest.head? = some '\n') : (sectionsText ss ++ rest).head? = some '\n' := by
  cases ss with
  | nil => exact hrest
  | cons s ss => rfl

theorem IsTame.append_line (ha : IsTame a) (hb : IsTame b) (h : b.head? = some '\n') :
    IsTame (a ++ b) :=
  ha.append hb (.inr (by rw [h]; exact isIdent_of_mem_bodyMarks '\n' (by decide)))

theorem isTame_membersText {ms : List MemberText} (h : ∀ m ∈ ms, m.IsPlain) {rest : List Char}
    (hrest : IsTame rest) (hhead : rest.head? = some '\n') : IsTame (membersText ms ++ rest) := by
  induction ms with
  | nil => exact hrest
  | cons m ms ih =>
    obtain ⟨hm, hms⟩ := List.forall_mem_cons.mp h
    have hgap : IsTame "\n    ".toList := .of_isBlank (by decide)
    have hfront := (isTame_front hm).append_cons (c := ';') (by decide) (isTame_trailer hm)
    have htext : IsTame m.text := hgap.append hfront (.inl isIdent_space)
    rw [membersText_cons, List.append_assoc]
    exact htext.append_line (ih hms) (head?_membersText ms hhead)

theorem isTame_sectionsText {ss : List SectionText} (h : ∀ s ∈ ss, s.IsPlain) {rest : List Char}
    (hrest : IsTame rest) (hhead : rest.head? = some '\n') : IsTame (sectionsText ss ++ rest) := by
  induction ss with
  | nil => exact hrest
  | cons s ss ih =>
    obtain ⟨hs, hss⟩ := List.forall_mem_cons.mp h
    have hgap : IsTame "\n  ".toList := .of_isBlank (by decide)
    have hheading : IsTame (headingText s.visibility) := by
      cases hv : s.visibility with
      | packageAccess => exact absurd hv hs.visibility
      | _ => exact hgap.append (.of_word (by decide) (by decide)) (.inl isIdent_space)
    have hrest := head?_sectionsText ss hhead
    have hmembers := isTame_membersText hs.members (ih hss) hrest
    rw [sectionsText_cons, List.append_assoc, List.append_assoc]
    exact hheading.append_line hmembers (head?_membersText s.members hrest)

/-- No word of the body ends the class. -/
theorem isTame_body {c : ClassText} (h : c.IsPlain) : IsTame c.body := by
  have hend : IsTame "\n  ".toList := .of_isBlank (by decide)
  exact isTame_membersText h.leading (isTame_sectionsText h.sections hend rfl)
    (head?_sectionsText c.sections rfl)

end MigrationAudit.Pascal
