import MigrationAudit.Proofs.Pascal.HeaderText

/-!
# Headers read back

The text of a header is read back as that header when a type that stands in it holds neither a
semicolon nor an equals sign and closes the brackets that it opens. Commas, colons and parentheses
in a type cut nothing then, and a word for a modifier in front of no name is itself the name of a
parameter.
-/

namespace MigrationAudit.Pascal

open Text

/-! ## Headers that can be read back -/

/-- A type in single spaces that ends with its own text. -/
structure IsHeaderType (t : String) : Prop where
  ne_nil : t.toList ≠ []
  squash_eq : squash t.toList = t.toList
  balanced : IsBracketBalanced t.toList
  equals : '=' ∉ t.toList
  semicolon : ';' ∉ t.toList

structure IsHeaderParam (p : Param) : Prop where
  name : isIdentifier p.name.toList = true
  typeName : ∀ t ∈ p.typeName, IsHeaderType t
  modifier : ∀ m ∈ p.modifier, m ∈ paramModifiers

/-- A header of any routine, of a class as a whole or not, with identifiers for names. -/
structure Header.IsWritable (h : Header) : Prop where
  kind : h.kind ≠ .method
  owner : ∀ o ∈ h.owner, IsQualifier o
  name : isIdentifier h.name.toList = true
  params : ∀ p ∈ h.params, IsHeaderParam p
  returnType : ∀ t ∈ h.returnType, IsHeaderType t

instance (t : String) : Decidable (IsHeaderType t) :=
  decidable_of_iff (t.toList ≠ [] ∧ squash t.toList = t.toList ∧ IsBracketBalanced t.toList ∧
    '=' ∉ t.toList ∧ ';' ∉ t.toList)
    ⟨fun ⟨hne, hsquash, hbalanced, hequals, hsemicolon⟩ =>
      ⟨hne, hsquash, hbalanced, hequals, hsemicolon⟩,
      fun h => ⟨h.ne_nil, h.squash_eq, h.balanced, h.equals, h.semicolon⟩⟩

instance (p : Param) : Decidable (IsHeaderParam p) :=
  decidable_of_iff (isIdentifier p.name.toList = true ∧ (∀ t ∈ p.typeName, IsHeaderType t) ∧
    ∀ m ∈ p.modifier, m ∈ paramModifiers)
    ⟨fun ⟨hname, htype, hmodifier⟩ => ⟨hname, htype, hmodifier⟩,
      fun h => ⟨h.name, h.typeName, h.modifier⟩⟩

def Header.spelling (h : Header) (params : List Char) : List Char :=
  classWord h.isClassLevel ++ ((tag h.kind).toList ++ ' ' :: (ownerText h.owner ++
    (h.name.toList ++ (params ++ typeText h.returnType))))

/-! ## Plain headers among them -/

theorem IsTypeText.isHeaderType {t : String} (h : IsTypeText t) : IsHeaderType t where
  ne_nil := h.ne_nil
  squash_eq := h.squash_eq
  balanced := h.isBracketFree.isBracketBalanced
  equals := h.not_mem (by decide) (by decide) (by decide)
  semicolon := h.not_mem (by decide) (by decide) (by decide)

theorem IsPlainParam.isHeaderParam {p : Param} (h : IsPlainParam p) : IsHeaderParam p :=
  ⟨h.name, fun t ht => (h.typeName t ht).isHeaderType, h.modifier⟩

theorem Header.IsPlain.isWritable {h : Header} (hplain : h.IsPlain) : h.IsWritable where
  kind := hplain.kind
  owner := hplain.owner
  name := hplain.name
  params p hp := (hplain.params p hp).isHeaderParam
  returnType t ht := (hplain.returnType t ht).isHeaderType

/-! ## Parameters -/

theorem IsHeaderType.squashed? {t : String} (h : IsHeaderType t) :
    squashed? (' ' :: t.toList) = some t :=
  squashed?_eq_some h.ne_nil h.squash_eq

theorem groupParams_paramText {p : Param} (h : IsHeaderParam p) :
    groupParams (paramText p) = [p] := by
  obtain ⟨-, hident⟩ := isIdent_of_isIdentifier h.name
  have hcolon : ':' ∉ p.name.toList := not_mem_of_isIdent (by decide) hident
  obtain ⟨hword, hblank⟩ := head?_typeText p.typeName
  rw [groupParams, paramText, groupModifier_append h.modifier h.name hword hblank]
  rcases p with ⟨name, typeName | type, modifier⟩
  · simp [typeText, splitFirst?_eq_none hcolon, identifiers_name h.name]
  · have htype := h.typeName type rfl
    have hequals : before '=' (' ' :: type.toList) = ' ' :: type.toList := by
      refine List.takeWhile_eq_self_iff.mpr (List.forall_mem_cons.mpr ⟨by decide, fun c hc => ?_⟩)
      simpa using ne_of_mem_of_not_mem hc htype.equals
    simp [typeText, splitFirst?_append hcolon, identifiers_name h.name, hequals, htype.squashed?]

theorem isBracketBalanced_typeText {t : Option String} (h : ∀ s ∈ t, IsHeaderType s) :
    IsBracketBalanced (typeText t) ∧ ';' ∉ typeText t := by
  cases t with
  | none => exact ⟨IsBracketFree.isBracketBalanced (List.forall_mem_nil _), List.not_mem_nil⟩
  | some t =>
    have hcolon : IsBracketFree [':', ' '] := by decide
    have ht := h t rfl
    exact ⟨hcolon.isBracketBalanced.append ht.balanced, by simp [typeText, ht.semicolon]⟩

/-- The text of a parameter can stand between semicolons, and in parentheses. -/
theorem isBracketBalanced_paramText {p : Param} (h : IsHeaderParam p) :
    IsBracketBalanced (paramText p) ∧ ';' ∉ paramText p := by
  obtain ⟨-, hident⟩ := isIdent_of_isIdentifier h.name
  have hname : ';' ∉ p.name.toList := not_mem_of_isIdent (by decide) hident
  have hmodifier := isBracketFree_modifierText h.modifier
  have htype := isBracketBalanced_typeText h.typeName
  have hfront := (isBracketFree_of_isIdent hident).isBracketBalanced.append htype.1
  exact ⟨hmodifier.1.isBracketBalanced.append hfront,
    by simp [paramText, hname, hmodifier.2, htype.2]⟩

theorem paramText_ends {p : Param} (h : IsHeaderParam p) :
    paramText p ≠ [] ∧ (paramText p).head?.any isBlank = false ∧
      (paramText p).getLast?.any isBlank = false := by
  obtain ⟨hne, hident⟩ := isIdent_of_isIdentifier h.name
  refine ⟨?_, ?_, ?_⟩
  · simp [paramText, hne]
  · cases hm : p.modifier with
    | none =>
      rw [paramText, hm]
      exact (head?_name h.name).2
    | some m =>
      rw [paramText, hm, modifierText, List.append_assoc]
      exact (head?_name (lowered_modifier (h.modifier m hm)).2).2
  · cases ht : p.typeName with
    | none =>
      rw [paramText, ht, typeText, List.append_nil, List.getLast?_append_of_ne_nil _ hne,
        List.getLast?_eq_some_getLast hne]
      exact isBlank_of_isIdent (hident _ (List.getLast_mem hne))
    | some t =>
      have htype := h.typeName t ht
      have hends := (squash_ends t.toList).2
      rw [htype.squash_eq] at hends
      have hsplit : paramText p = modifierText p.modifier ++ (p.name.toList ++ [':', ' ']) ++
          t.toList := by simp [paramText, ht, typeText]
      rw [hsplit, List.getLast?_append_of_ne_nil _ htype.ne_nil]
      exact hends

theorem parseParams_groupsText {ps : List Param} (h : ∀ p ∈ ps, IsHeaderParam p) :
    parseParams (groupsText ps) = ps := by
  cases ps with
  | nil =>
    simp [groupsText, parseParams, splitTopLevel, topLevelPieces, trim, trimWhere, dropEndWhile]
  | cons p ps =>
    have hparam : ∀ q ∈ paramText p :: ps.map paramText,
        ∃ p, IsHeaderParam p ∧ paramText p = q := by
      rw [← List.map_cons]
      rintro q hq
      obtain ⟨p, hp, rfl⟩ := List.mem_map.mp hq
      exact ⟨p, h p hp, rfl⟩
    rw [groupsText, parseParams, splitTopLevel_separated (by decide) (by decide) (by decide)]
    · rw [← List.map_cons, List.flatMap_map,
        List.flatMap_congr fun p hp => groupParams_paramText (h p hp), List.flatMap_singleton']
    all_goals
      intro q hq
      obtain ⟨p, hp, rfl⟩ := hparam q hq
    · obtain ⟨hbalanced, hsemicolon⟩ := isBracketBalanced_paramText hp
      exact .of_isPaired hbalanced.isPaired hsemicolon
    · exact (paramText_ends hp).1
    · exact (paramText_ends hp).2.1
    · exact (paramText_ends hp).2.2

theorem isPaired_groupsText {ps : List Param} (h : ∀ p ∈ ps, IsHeaderParam p) :
    IsPaired (· == '(') (· == ')') (groupsText ps) := by
  cases ps with
  | nil => rfl
  | cons p ps =>
    obtain ⟨hp, hps⟩ := List.forall_mem_cons.mp h
    refine (isBracketBalanced_paramText hp).1.parentheses.append (.flatMap fun q hq => ?_)
    obtain ⟨p, hp, rfl⟩ := List.mem_map.mp hq
    have hseparator : IsPaired (· == '(') (· == ')') [';', ' '] := by decide
    exact hseparator.append (isBracketBalanced_paramText (hps p hp)).1.parentheses

theorem parenthesized_groupsText {ps : List Param} (h : ∀ p ∈ ps, IsHeaderParam p)
    (rest : List Char) :
    parenthesized ('(' :: (groupsText ps ++ ')' :: rest)) = (groupsText ps, rest) := by
  rw [parenthesized, splitAtClose?_of_isPaired (by decide) (isPaired_groupsText h)]
  rfl

/-! ## Names -/

theorem splitQualified_ownerText (owner : Option String) {name : String} (h : '.' ∉ name.toList) :
    splitQualified (ownerText owner ++ name.toList) = (owner, name) := by
  cases owner with
  | none => simp [splitQualified, ownerText, splitLast?_eq_none h]
  | some owner => simp [splitQualified, ownerText, splitLast?_append h]

/-! ## Headers -/

theorem afterKeyword?_spelling {h : Header} (hwritable : h.IsWritable) {params : List Char}
    (hparams : IsParamsText h.params params) :
    Header.afterKeyword? h.kind h.isClassLevel (' ' :: (ownerText h.owner ++
      (h.name.toList ++ (params ++ typeText h.returnType)))) = some h := by
  obtain ⟨hpart, hhead, hlast⟩ := qualified_ends hwritable.owner hwritable.name
  obtain ⟨hpart', hblank⟩ := hparams.head? h.returnType
  have hdot : '.' ∉ h.name.toList :=
    not_mem_of_isIdent isIdent_dot (isIdent_of_isIdentifier hwritable.name).2
  have hqualified := splitQualified_ownerText h.owner hdot
  rw [← List.append_assoc]
  generalize ownerText h.owner ++ h.name.toList = qualified at *
  obtain ⟨c, cs, rfl⟩ : ∃ c cs, qualified = c :: cs := by
    refine List.exists_cons_of_ne_nil ?_
    rintro rfl
    simp at hhead
  have hc : isIdent c = true := by simpa using hhead
  have hstart : trimStart (' ' :: (c :: cs ++ (params ++ typeText h.returnType))) =
      c :: cs ++ (params ++ typeText h.returnType) := by
    rw [trimStart, List.dropWhile_cons_of_pos (by decide)]
    exact dropWhile_eq_self_of_head? (isBlank_of_isIdent hc)
  have hdots : trimWhere (· == '.') (c :: cs) = c :: cs := by
    have hnot : ∀ a : Char, isIdent a = true → (a == '.') = false := fun a ha => by
      by_contra hne
      simp only [Bool.not_eq_false, beq_iff_eq] at hne
      simp [hne, isIdent_dot] at ha
    refine trimWhere_eq_self (hnot c hc) ?_
    rw [List.getLast?_eq_some_getLast (List.cons_ne_nil c cs)] at hlast ⊢
    exact hnot _ hlast
  have htail : trimStart (params ++ typeText h.returnType) = params ++ typeText h.returnType :=
    dropWhile_eq_self_of_head? hblank
  simp only [Header.afterKeyword?, hstart, takeWhile_append_of_head? hpart hpart',
    dropWhile_append_of_head? hpart hpart', hdots, htail, hqualified]
  rcases h with ⟨kind, owner, name, ps, returnType, isClassLevel⟩
  have htype : ∀ t ∈ returnType, squashed? (' ' :: t.toList) = some t := fun t ht =>
    (hwritable.returnType t ht).squashed?
  rcases hparams with rfl | ⟨rfl, rfl⟩
  · have hopen : enclosedParams ps ++ typeText returnType =
        '(' :: (groupsText ps ++ ')' :: typeText returnType) := by simp [enclosedParams]
    have hafter : trimStart (typeText returnType) = typeText returnType :=
      dropWhile_eq_self_of_head? (head?_typeText returnType).2
    simp only [hopen, parenthesized_groupsText hwritable.params,
      parseParams_groupsText hwritable.params, hafter]
    cases returnType <;> simp_all [typeText]
  · simp only [List.nil_append]
    cases returnType <;> simp_all [typeText]

theorem Header.parse?_of_isParamsText {h : Header} (hwritable : h.IsWritable) {params : List Char}
    (hparams : IsParamsText h.params params) : Header.parse? (h.spelling params) = some h := by
  obtain ⟨hkind, hkeyword, hclass⟩ := routineKind?_tag hwritable.kind
  obtain ⟨hne, hident⟩ := isIdent_of_isIdentifier hkeyword
  have hread := afterKeyword?_spelling hwritable hparams
  generalize hrest : ownerText h.owner ++ (h.name.toList ++ (params ++ typeText h.returnType)) =
    rest at hread
  have hword : leadingWord? ((tag h.kind).toList ++ ' ' :: rest) =
      some ((tag h.kind).toList, ' ' :: rest) := leadingWord?_append hne hident isIdent_space
  rw [spelling, hrest]
  cases hlevel : h.isClassLevel with
  | false =>
    rw [hlevel] at hread
    simp only [classWord, Bool.false_eq_true, if_false, List.nil_append, Header.parse?, hword,
      beq_eq_false_iff_ne.mpr hclass, hkind, Option.bind_some, hread]
  | true =>
    rw [hlevel] at hread
    have hident : ∀ a ∈ "class".toList, isIdent a = true := List.all_eq_true.mp (by decide)
    have hfirst : leadingWord? ("class ".toList ++ ((tag h.kind).toList ++ ' ' :: rest)) =
        some ("class".toList, ' ' :: ((tag h.kind).toList ++ ' ' :: rest)) :=
      leadingWord?_append (by simp) hident isIdent_space
    have hlower : (lowered "class".toList == "class") = true := by decide
    have hspace : leadingWord? (' ' :: ((tag h.kind).toList ++ ' ' :: rest)) =
        leadingWord? ((tag h.kind).toList ++ ' ' :: rest) := rfl
    simp only [classWord, if_true, Header.parse?, hfirst, hlower, hspace, hword, hkind,
      Option.bind_some, hread]

/-- A header is what is read from its text, with the parentheses of an empty parameter list or
without them. -/
theorem Header.parse?_spelling {h : Header} (hwritable : h.IsWritable) :
    Header.parse? (h.spelling (paramsText h.params)) = some h ∧
      Header.parse? (h.spelling (enclosedParams h.params)) = some h :=
  ⟨parse?_of_isParamsText hwritable (isParamsText_paramsText h.params),
    parse?_of_isParamsText hwritable (.inl rfl)⟩

/-- A class function with two dots in front of its name, and with parameters named as modifiers. -/
def lookupHeader : Header where
  kind := .function
  owner := some "Cache.TPool"
  name := "Find"
  params := [
    ⟨"const", some "TList<TPair<Word, Byte>>", some "var"⟩,
    ⟨"out", some "procedure(X: Integer) of object", none⟩,
    ⟨"Key", none, some "const"⟩,
    ⟨"var", none, none⟩]
  returnType := some "array [0..3] of TFunc<Word, Byte>"
  isClassLevel := true

theorem isWritable_lookupHeader : lookupHeader.IsWritable where
  kind := by decide
  owner := by
    rintro o ⟨⟩
    exact ⟨by decide, by decide⟩
  name := by decide
  params := by decide
  returnType := by decide

def lookupText : String :=
  "class function Cache.TPool.Find(var const: TList<TPair<Word, Byte>>; " ++
    "out: procedure(X: Integer) of object; const Key; var): array [0..3] of TFunc<Word, Byte>"

theorem parse?_lookupHeader : Header.parse? lookupText.toList = some lookupHeader := by
  have hspelling : lookupHeader.spelling (paramsText lookupHeader.params) = lookupText.toList := by
    decide +kernel
  rw [← hspelling]
  exact (Header.parse?_spelling isWritable_lookupHeader).1

theorem Header.parse?_text {h : Header} (hplain : h.IsPlain) : Header.parse? h.text = some h := by
  have hspelling : h.spelling (paramsText h.params) = h.text := by
    rw [spelling, hplain.isClassLevel]
    rfl
  rw [← hspelling]
  exact parse?_of_isParamsText hplain.isWritable (isParamsText_paramsText h.params)

end MigrationAudit.Pascal
