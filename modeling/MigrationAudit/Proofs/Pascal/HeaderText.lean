import MigrationAudit.Pascal.Header
import MigrationAudit.Pascal.Statement
import MigrationAudit.Proofs.Text.Pieces

/-!
# Headers written out

A header that declares its parameters one by one is written in one line: the keyword, the name, the
parameters in parentheses with semicolons between them, and the result type. The semicolons between
its parameters do not end the statement.
-/

namespace MigrationAudit.Pascal

open Text

/-! ## Texts of headers -/

def modifierText : Option String → List Char
  | none => []
  | some modifier => modifier.toList ++ [' ']

def typeText : Option String → List Char
  | none => []
  | some type => ':' :: ' ' :: type.toList

def ownerText : Option String → List Char
  | none => []
  | some owner => owner.toList ++ ['.']

def paramText (p : Param) : List Char :=
  modifierText p.modifier ++ (p.name.toList ++ typeText p.typeName)

def groupsText : List Param → List Char
  | [] => []
  | p :: ps => paramText p ++ separated ';' (ps.map paramText)

/-- The parameters in parentheses, which are left out when there are no parameters. -/
def paramsText : List Param → List Char
  | [] => []
  | ps => '(' :: (groupsText ps ++ [')'])

/-- The parameters in parentheses, which stand there without parameters, too. -/
def enclosedParams (ps : List Param) : List Char := '(' :: (groupsText ps ++ [')'])

def classWord (classLevel : Bool) : List Char := if classLevel then "class ".toList else []

def Header.text (h : Header) : List Char :=
  (tag h.kind).toList ++ ' ' :: (ownerText h.owner ++
    (h.name.toList ++ (paramsText h.params ++ typeText h.returnType)))

/-! ## Headers that can be written -/

/-- Names, qualified or not, with single spaces between them. -/
structure IsTypeText (t : String) : Prop where
  ne_nil : t.toList ≠ []
  squash_eq : squash t.toList = t.toList
  plain : (t.toList.all fun c => isIdent c || c == '.' || c == ' ') = true

/-- A name that may have dots behind its first character. -/
structure IsQualifier (t : String) : Prop where
  head : t.toList.head?.any isIdent = true
  plain : (t.toList.all fun c => isIdent c || c == '.') = true

structure IsPlainParam (p : Param) : Prop where
  name : isIdentifier p.name.toList = true
  typeName : ∀ t ∈ p.typeName, IsTypeText t
  modifier : ∀ m ∈ p.modifier, m ∈ paramModifiers

/-- A header of a routine that belongs to no class as a whole, with identifiers for names. -/
structure Header.IsPlain (h : Header) : Prop where
  kind : h.kind ≠ .method
  isClassLevel : h.isClassLevel = false
  owner : ∀ o ∈ h.owner, IsQualifier o
  name : isIdentifier h.name.toList = true
  params : ∀ p ∈ h.params, IsPlainParam p
  returnType : ∀ t ∈ h.returnType, IsTypeText t

/-! ## Characters -/

variable {cs rest : List Char}

theorem isIdent_of_isIdentifier (h : isIdentifier cs = true) :
    cs ≠ [] ∧ ∀ c ∈ cs, isIdent c = true := by
  cases cs with
  | nil => simp [isIdentifier] at h
  | cons c cs =>
    simp only [isIdentifier, Bool.and_eq_true, List.all_eq_true] at h
    have hc : isIdent c = true := by
      have := h.1
      simp only [isIdentStart, Bool.or_eq_true] at this
      simp only [isIdent, isAlphanumeric, Bool.or_eq_true]
      tauto
    exact ⟨by simp, List.forall_mem_cons.mpr ⟨hc, h.2⟩⟩

/-- A character that continues no identifier is not in a text of identifier characters. -/
theorem not_mem_of_isIdent {a : Char} (ha : isIdent a = false) (h : ∀ c ∈ cs, isIdent c = true) :
    a ∉ cs := fun hmem => by simp [h a hmem] at ha

theorem bracketFree_of_isIdent {c : Char} (h : isIdent c = true) :
    isOpening c = false ∧ isClosing c = false := by
  have hnone : brackets.any isIdent = false := by decide
  exact bracketFree_of_notMem fun hmem => List.any_eq_false.mp hnone c hmem h

theorem isBracketFree_of_isIdent (h : ∀ c ∈ cs, isIdent c = true) : IsBracketFree cs :=
  fun c hc => bracketFree_of_isIdent (h c hc)

theorem isIdent_dot : isIdent '.' = false := by decide

theorem head?_name (h : isIdentifier cs = true) :
    (cs ++ rest).head?.any isIdent = true ∧ (cs ++ rest).head?.any isBlank = false := by
  obtain ⟨hne, hident⟩ := isIdent_of_isIdentifier h
  have hhead := hident _ (List.head_mem hne)
  rw [List.head?_append_of_ne_nil _ hne, List.head?_eq_some_head hne]
  exact ⟨hhead, isBlank_of_isIdent hhead⟩

/-! ## Parameters -/

theorem head?_typeText (t : Option String) :
    (typeText t).head?.any isIdent = false ∧ (typeText t).head?.any isBlank = false := by
  cases t with
  | none => exact ⟨rfl, rfl⟩
  | some t =>
    have hcolon : isIdent ':' = false := by decide
    exact ⟨hcolon, rfl⟩

theorem lowered_modifier {m : String} (h : m ∈ paramModifiers) :
    lowered m.toList = m ∧ isIdentifier m.toList = true := by
  have hall : ∀ m ∈ paramModifiers, lowered m.toList = m ∧ isIdentifier m.toList = true := by
    decide
  exact hall m h

theorem groupModifier_append {m : Option String} (hm : ∀ s ∈ m, s ∈ paramModifiers)
    (hname : isIdentifier cs = true) (hrest : rest.head?.any isIdent = false)
    (hblank : rest.head?.any isBlank = false) :
    groupModifier (modifierText m ++ (cs ++ rest)) = (m, cs ++ rest) := by
  obtain ⟨hne, hident⟩ := isIdent_of_isIdentifier hname
  cases m with
  | none => simp [modifierText, groupModifier, leadingWord?_append hne hident hrest, hblank]
  | some m =>
    obtain ⟨hlower, hm'⟩ := lowered_modifier (hm m rfl)
    obtain ⟨hne', hident'⟩ := isIdent_of_isIdentifier hm'
    have hword : leadingWord? (m.toList ++ ' ' :: (cs ++ rest)) =
        some (m.toList, ' ' :: (cs ++ rest)) :=
      leadingWord?_append hne' hident' isIdent_space
    have htrim : trimStart (' ' :: (cs ++ rest)) = cs ++ rest := by
      rw [trimStart, List.dropWhile_cons_of_pos (by decide)]
      exact dropWhile_eq_self_of_head? (head?_name hname).2
    have hspace : isBlank ' ' = true := rfl
    rw [modifierText, List.append_assoc, List.singleton_append, groupModifier]
    simp [hword, hlower, htrim, hm m rfl, hspace]

theorem identifiers_name (h : isIdentifier cs = true) : identifiers cs = [String.ofList cs] := by
  obtain ⟨hne, hident⟩ := isIdent_of_isIdentifier h
  have hcomma : ',' ∉ cs := not_mem_of_isIdent (by decide) hident
  have htrim : trim cs = cs := by
    refine trimWhere_eq_self ?_ ?_
    · rw [List.head?_eq_some_head hne, Option.any_some]
      exact isBlank_of_isIdent (hident _ (List.head_mem hne))
    · rw [List.getLast?_eq_some_getLast hne, Option.any_some]
      exact isBlank_of_isIdent (hident _ (List.getLast_mem hne))
  simp [identifiers, splitAll_eq_singleton hcomma, htrim, h]

theorem squashed?_typeText {t : String} (h : IsTypeText t) : squashed? (' ' :: t.toList) = some t :=
  squashed?_eq_some h.ne_nil h.squash_eq

namespace IsTypeText

variable {t : String}

theorem char_cases (h : IsTypeText t) {c : Char} (hc : c ∈ t.toList) :
    isIdent c = true ∨ c = '.' ∨ c = ' ' := by
  have := List.all_eq_true.mp h.plain c hc
  simpa [or_assoc] using this

theorem not_mem (h : IsTypeText t) {a : Char} (ha : isIdent a = false) (hdot : a ≠ '.')
    (hspace : a ≠ ' ') : a ∉ t.toList := fun hmem => by
  rcases h.char_cases hmem with hident | hdot' | hspace'
  · simp [hident] at ha
  · exact hdot hdot'
  · exact hspace hspace'

theorem isBracketFree (h : IsTypeText t) : IsBracketFree t.toList := fun c hc => by
  rcases h.char_cases hc with hident | rfl | rfl
  · exact bracketFree_of_isIdent hident
  · decide
  · decide

end IsTypeText

theorem isBracketFree_typeText {t : Option String} (h : ∀ s ∈ t, IsTypeText s) :
    IsBracketFree (typeText t) ∧ ';' ∉ typeText t := by
  cases t with
  | none => simp [typeText, IsBracketFree]
  | some t =>
    have ht := h t rfl
    have hnot : ';' ∉ t.toList := ht.not_mem (by decide) (by decide) (by decide)
    exact ⟨List.forall_mem_cons.mpr ⟨by decide, List.forall_mem_cons.mpr
      ⟨by decide, ht.isBracketFree⟩⟩, by simp [typeText, hnot]⟩

theorem isBracketFree_modifierText {m : Option String} (h : ∀ s ∈ m, s ∈ paramModifiers) :
    IsBracketFree (modifierText m) ∧ ';' ∉ modifierText m := by
  cases m with
  | none => simp [modifierText, IsBracketFree]
  | some m =>
    obtain ⟨-, hident⟩ := isIdent_of_isIdentifier (lowered_modifier (h m rfl)).2
    have hnot : ';' ∉ m.toList := not_mem_of_isIdent (by decide) hident
    exact ⟨isBracketFree_append_iff.mpr ⟨isBracketFree_of_isIdent hident, by decide⟩,
      by simp [modifierText, hnot]⟩

theorem isBracketFree_paramText {p : Param} (h : IsPlainParam p) :
    IsBracketFree (paramText p) ∧ ';' ∉ paramText p := by
  obtain ⟨-, hident⟩ := isIdent_of_isIdentifier h.name
  have hnot : ';' ∉ p.name.toList := not_mem_of_isIdent (by decide) hident
  have hmodifier := isBracketFree_modifierText h.modifier
  have htype := isBracketFree_typeText h.typeName
  exact ⟨isBracketFree_append_iff.mpr ⟨hmodifier.1, isBracketFree_append_iff.mpr
    ⟨isBracketFree_of_isIdent hident, htype.1⟩⟩, by simp [paramText, hnot, hmodifier.2, htype.2]⟩

theorem isBracketFree_groupsText {ps : List Param} (h : ∀ p ∈ ps, IsPlainParam p) :
    IsBracketFree (groupsText ps) := by
  cases ps with
  | nil => simp [groupsText, IsBracketFree]
  | cons p ps =>
    obtain ⟨hp, hps⟩ := List.forall_mem_cons.mp h
    refine isBracketFree_append_iff.mpr ⟨(isBracketFree_paramText hp).1, ?_⟩
    simp only [separated, IsBracketFree, List.mem_flatMap, List.mem_map]
    rintro c ⟨q, ⟨p, hp, rfl⟩, hc⟩
    rcases List.mem_cons.mp hc with rfl | hc
    · decide
    rcases List.mem_cons.mp hc with rfl | hc
    · decide
    exact (isBracketFree_paramText (hps p hp)).1 c hc

/-! ## Headers -/

theorem routineKind?_tag {k : RoutineKind} (h : k ≠ .method) :
    routineKind? (lowered (Tagged.tag k).toList) = some k ∧
      isIdentifier (Tagged.tag k).toList = true ∧ lowered (Tagged.tag k).toList ≠ "class" := by
  cases k with
  | method => contradiction
  | _ => decide

theorem qualified_ends {h : Header} (howner : ∀ o ∈ h.owner, IsQualifier o)
    (hname : isIdentifier h.name.toList = true) :
    (∀ c ∈ ownerText h.owner ++ h.name.toList, (isIdent c || c == '.') = true) ∧
      (ownerText h.owner ++ h.name.toList).head?.any isIdent = true ∧
        (ownerText h.owner ++ h.name.toList).getLast?.any isIdent = true := by
  obtain ⟨hne, hident⟩ := isIdent_of_isIdentifier hname
  refine ⟨List.forall_mem_append.mpr ⟨?_, fun c hc => by simp [hident c hc]⟩, ?_, ?_⟩
  · cases ho : h.owner with
    | none => simp [ownerText]
    | some o =>
      have hplain := List.all_eq_true.mp (howner o ho).plain
      exact List.forall_mem_append.mpr ⟨hplain, List.forall_mem_singleton.mpr rfl⟩
  · cases ho : h.owner with
    | none =>
      rw [ownerText, List.nil_append, ← List.append_nil h.name.toList]
      exact (head?_name hname).1
    | some o =>
      have hhead := (howner o ho).head
      have hne' : o.toList ≠ [] := by
        rintro hnil
        simp [hnil] at hhead
      rwa [ownerText, List.append_assoc, List.head?_append_of_ne_nil _ hne']
  · rw [List.getLast?_append_of_ne_nil _ hne, List.getLast?_eq_some_getLast hne]
    exact hident _ (List.getLast_mem hne)

/-- How the parameters of a header may be written: in parentheses, which may be left out when there
are none. -/
def IsParamsText (ps : List Param) (params : List Char) : Prop :=
  params = enclosedParams ps ∨ ps = [] ∧ params = []

theorem isParamsText_paramsText (ps : List Param) : IsParamsText ps (paramsText ps) := by
  cases ps with
  | nil => exact .inr ⟨rfl, rfl⟩
  | cons p ps => exact .inl rfl

theorem IsParamsText.head? {ps : List Param} {params : List Char} (h : IsParamsText ps params)
    (returnType : Option String) :
    (params ++ typeText returnType).head?.any (fun c => isIdent c || c == '.') = false ∧
      (params ++ typeText returnType).head?.any isBlank = false := by
  have hparen : isIdent '(' = false := by decide
  have hcolon : isIdent ':' = false := by decide
  rcases h with rfl | ⟨-, rfl⟩
  · exact ⟨by simp [enclosedParams, hparen], rfl⟩
  · cases returnType with
    | none => exact ⟨rfl, rfl⟩
    | some t => exact ⟨by simp [typeText, hcolon], rfl⟩

theorem head?_paramsText (h : Header) :
    (paramsText h.params ++ typeText h.returnType).head?.any (fun c => isIdent c || c == '.') =
        false ∧
      (paramsText h.params ++ typeText h.returnType).head?.any isBlank = false :=
  (isParamsText_paramsText h.params).head? h.returnType

theorem paramsText_append (p : Param) (ps : List Param) (rest : List Char) :
    paramsText (p :: ps) ++ rest = '(' :: (groupsText (p :: ps) ++ ')' :: rest) := by
  simp [paramsText]

/-! ## Statements -/

theorem splitStatement_append_of_isBracketFree (depth : Nat) (hfree : IsBracketFree cs)
    (h : depth ≠ 0 ∨ ';' ∉ cs) :
    splitStatement depth (cs ++ rest) =
      (cs ++ (splitStatement depth rest).1, (splitStatement depth rest).2) := by
  induction cs with
  | nil => rfl
  | cons c cs ih =>
    obtain ⟨hc, hcs⟩ := List.forall_mem_cons.mp hfree
    have hcs' : depth ≠ 0 ∨ ';' ∉ cs := h.imp_right fun h hmem => h (List.mem_cons_of_mem c hmem)
    have hend : (c == ';' && depth == 0) = false := by
      rcases h with h | h
      · simp [h]
      · rw [List.mem_cons, not_or] at h
        simp [Ne.symm h.1]
    have hopen : (c == '(' || c == '[') = false := by
      have := hc.1
      simp only [isOpening, Bool.or_eq_false_iff] at this
      simp [this]
    have hclose : (c == ')' || c == ']') = false := by
      have := hc.2
      simp only [isClosing, Bool.or_eq_false_iff] at this
      simp [this]
    rw [List.cons_append, splitStatement, hend, hopen, hclose]
    simp [ih hcs hcs']

theorem splitStatement_paramsText {ps : List Param} (h : ∀ p ∈ ps, IsPlainParam p)
    (rest : List Char) :
    splitStatement 0 (paramsText ps ++ rest) =
      (paramsText ps ++ (splitStatement 0 rest).1, (splitStatement 0 rest).2) := by
  cases ps with
  | nil => rfl
  | cons p ps =>
    have hopen : ∀ cs, splitStatement 0 ('(' :: cs) =
        ('(' :: (splitStatement 1 cs).1, (splitStatement 1 cs).2) := fun _ => rfl
    have hclose : ∀ cs, splitStatement 1 (')' :: cs) =
        (')' :: (splitStatement 0 cs).1, (splitStatement 0 cs).2) := fun _ => rfl
    rw [paramsText_append, paramsText_append, hopen, splitStatement_append_of_isBracketFree 1
      (isBracketFree_groupsText h) (.inl Nat.one_ne_zero), hclose]

theorem isBracketFree_front {h : Header} (hplain : h.IsPlain) :
    IsBracketFree ((tag h.kind).toList ++ ' ' :: (ownerText h.owner ++ h.name.toList)) ∧
      ';' ∉ (tag h.kind).toList ++ ' ' :: (ownerText h.owner ++ h.name.toList) := by
  have hsemicolon : isIdent ';' = false := by decide
  have hpart := (qualified_ends hplain.owner hplain.name).1
  have hkeyword := (isIdent_of_isIdentifier (routineKind?_tag hplain.kind).2.1).2
  have hall : ∀ c ∈ (tag h.kind).toList ++ ' ' :: (ownerText h.owner ++ h.name.toList),
      isIdent c = true ∨ c = ' ' ∨ c = '.' := by
    refine List.forall_mem_append.mpr ⟨fun c hc => .inl (hkeyword c hc),
      List.forall_mem_cons.mpr ⟨by simp, fun c hc => ?_⟩⟩
    have := hpart c hc
    simp only [Bool.or_eq_true, beq_iff_eq] at this
    tauto
  refine ⟨fun c hc => ?_, fun hmem => ?_⟩
  · rcases hall c hc with hident | rfl | rfl
    · exact bracketFree_of_isIdent hident
    · decide
    · decide
  · simpa [hsemicolon] using hall ';' hmem

/-- A written header is one statement. -/
theorem splitStatement_text {h : Header} (hplain : h.IsPlain) (rest : List Char) :
    splitStatement 0 (h.text ++ ';' :: rest) = (h.text, ';' :: rest) := by
  obtain ⟨hfront, hnotin⟩ := isBracketFree_front hplain
  obtain ⟨htype, hnotin'⟩ := isBracketFree_typeText hplain.returnType
  have hsplit : h.text ++ ';' :: rest =
      ((tag h.kind).toList ++ ' ' :: (ownerText h.owner ++ h.name.toList)) ++
        (paramsText h.params ++ (typeText h.returnType ++ ';' :: rest)) := by
    simp [Header.text]
  rw [hsplit, splitStatement_append_of_isBracketFree 0 hfront (.inr hnotin),
    splitStatement_paramsText hplain.params,
    splitStatement_append_of_isBracketFree 0 htype (.inr hnotin')]
  simp [splitStatement, Header.text]

end MigrationAudit.Pascal
