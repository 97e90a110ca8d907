import MigrationAudit.Proofs.Pascal.ClassBody
import MigrationAudit.Proofs.Pascal.HeaderRoundTrip

/-!
# Members declared by their texts

The text of a member declares that member: its fields, its property or its method, and behind a
method its directives.
-/

namespace MigrationAudit.Pascal

open Text Source

variable {cs rest : List Char}

/-! ## The first word -/

theorem leadingWord?_cons_space (cs : List Char) : leadingWord? (' ' :: cs) = leadingWord? cs := by
  have hspace : isBlank ' ' = true := rfl
  simp [leadingWord?, trimStart, hspace]

theorem leadingWord?_identifier (h : isIdentifier cs = true)
    (hrest : rest.head?.any isIdent = false) : leadingWord? (cs ++ rest) = some (cs, rest) := by
  obtain ⟨hne, hident⟩ := isIdent_of_isIdentifier h
  exact leadingWord?_append hne hident hrest

namespace IsFreeName

variable {n : String}

theorem not_mem (h : IsFreeName n) {c : Char} (hc : isIdent c = false) : c ∉ n.toList :=
  not_mem_of_isIdent hc (isIdent_of_isIdentifier h.identifier).2

theorem ne {w : String} (h : IsFreeName n) (hw : w ∈ reserved) : lowered n.toList ≠ w :=
  fun heq => h.free (heq ▸ hw)

theorem routineKind?_eq_none (h : IsFreeName n) : routineKind? (lowered n.toList) = none := by
  have hprocedure := h.ne (w := "procedure") (by decide)
  have hfunction := h.ne (w := "function") (by decide)
  have hconstructor := h.ne (w := "constructor") (by decide)
  have hdestructor := h.ne (w := "destructor") (by decide)
  unfold routineKind?
  split <;> simp_all

theorem trim_eq (h : IsFreeName n) :
    trim n.toList = n.toList ∧ trim (' ' :: n.toList) = n.toList := by
  obtain ⟨hstart, hend⟩ := h.startsVisibly
  have hself : trim ([] ++ (n.toList ++ [])) = n.toList :=
    (trim_append (List.forall_mem_nil _) (List.forall_mem_nil _) hstart hend).1
  have hspace : trim ([' '] ++ (n.toList ++ [])) = n.toList :=
    (trim_append (List.all_eq_true.mp (by decide)) (List.forall_mem_nil _) hstart hend).1
  rw [List.append_nil] at hself hspace
  exact ⟨hself, hspace⟩

end IsFreeName

/-! ## Fields -/

theorem identifiers_listText {ns : List String} (h : ∀ n ∈ ns, IsFreeName n) :
    identifiers (listText ns) = ns := by
  cases ns with
  | nil => rfl
  | cons n ns =>
    have hlist : n.toList :: ns.map (·.toList) = (n :: ns).map (·.toList) := rfl
    have hcomma : ∀ p ∈ (n :: ns).map (·.toList), ',' ∉ p := by
      refine List.forall_mem_map.mpr fun m hm => ?_
      exact (h m hm).not_mem (by decide)
    have hfilter : ((n :: ns).map (·.toList)).filter isIdentifier = (n :: ns).map (·.toList) :=
      List.filter_eq_self.mpr (List.forall_mem_map.mpr fun m hm => (h m hm).identifier)
    obtain ⟨hn, hns⟩ := List.forall_mem_cons.mp h
    have htrim : ((ns.map (·.toList)).map (' ' :: ·)).map trim = ns.map (·.toList) := by
      rw [List.map_map, List.map_map]
      exact List.map_congr_left fun m hm => (hns m hm).trim_eq.2
    rw [identifiers, listText, splitAll_separated (by decide) hcomma, List.map_cons, hn.trim_eq.1,
      htrim, hlist, hfilter, List.map_map]
    simp

section Declarations

variable {s : ExtractionSettings} {owner : String}

theorem before_equals {t : String} (h : IsFreeName t) :
    before '=' (' ' :: t.toList) = ' ' :: t.toList := by
  have hne : '=' ∉ ' ' :: t.toList := by
    rw [List.mem_cons, not_or]
    exact ⟨by decide, h.not_mem (by decide)⟩
  exact List.takeWhile_eq_self_iff.mpr fun c hc => by simpa using ne_of_mem_of_not_mem hc hne

theorem readFields_text (m : Members) {names : List String} {t : String} (line : Nat)
    (hnames : ∀ n ∈ names, IsFreeName n) (ht : IsFreeName t) :
    m.readFields s owner 0 0 (listText names ++ typeText (some t)) line =
      m.addFields s owner (names.map fun name =>
        { name, typeName := some t, visibility := m.context.visibility, line }) := by
  have hcolon : ':' ∉ listText names :=
    (madeOf_listText hnames).not_mem (by decide) (by decide)
  have hsplit : splitFirst? ':' (listText names ++ typeText (some t)) =
      some (listText names, ' ' :: t.toList) := splitFirst?_append hcolon
  rw [Members.readFields, hsplit]
  simp [before_equals ht, squashed?_typeText ht.isTypeText, identifiers_listText hnames]

theorem readDeclaration_fields (m : Members) {names : List String} {t : String} (line : Nat)
    (hskipping : m.context.skipping = false)
    (h : (MemberText.fields names t).IsPlain) :
    m.readDeclaration s owner 0 0 (MemberText.fields names t).front line =
      m.addFields s owner (names.map fun name =>
        { name, typeName := some t, visibility := m.context.visibility, line }) := by
  obtain ⟨hne, hnames, ht⟩ := h
  obtain ⟨n, ns, rfl⟩ := List.exists_cons_of_ne_nil hne
  have hn := hnames n List.mem_cons_self
  have hword : leadingWord? (MemberText.fields (n :: ns) t).front =
      some (n.toList, separated ',' (ns.map (·.toList)) ++ typeText (some t)) := by
    rw [MemberText.front_fields, listText, List.append_assoc]
    exact leadingWord?_identifier hn.identifier (head?_behindName ns t)
  have hdirective : lowered n.toList ∉ directives := hn.not_mem_of_subset (by decide)
  have hproperty : lowered n.toList ≠ "property" := hn.ne (by decide)
  rw [Members.readDeclaration, hword]
  simp only [Option.map_some, Option.bind_some, Option.any_some, Option.isSome_none,
    hn.routineKind?_eq_none, List.contains_eq_mem, hdirective, decide_false, Bool.false_eq_true,
    if_false, hskipping]
  rw [if_neg (by simpa using hproperty)]
  exact readFields_text m line hnames ht

/-! ## Properties -/

theorem specifiersText_cons (word name : String) (specifiers : List (String × String)) :
    specifiersText ((word, name) :: specifiers) =
      [' '] ++ (word.toList ++ ' ' :: (name.toList ++ specifiersText specifiers)) := by
  simp [specifiersText]

/-- What follows the index of a property. -/
def pastIndex? (cs : List Char) : Option (List Char) :=
  match trimStart cs with
  | '[' :: rest => (splitAtClose? '[' ']' ('[' :: rest)).map fun (_, behind) => trimStart behind
  | rest => some rest

/-- The type at the start of what follows the index of a property. -/
def specifiedType? : List Char → Option String
  | ':' :: type =>
    match (words type).find? (·.isOneOf propertySpecifiers) with
    | some w => squashed? (takeBytes w.start type)
    | none => squashed? type
  | _ => none

theorem pastIndex?_cases (h : pastIndex? cs = some behind) :
    (∃ inside, trimStart cs = '[' :: inside ∧
      (splitAtClose? '[' ']' ('[' :: inside)).map (fun x => trimStart x.2) = some behind) ∨
    ((∀ inside, trimStart cs ≠ '[' :: inside) ∧ trimStart cs = behind) := by
  unfold pastIndex? at h
  split at h
  · next inside hinside => exact .inl ⟨inside, hinside, h⟩
  · next hbracket => exact .inr ⟨fun inside hinside => hbracket inside hinside, Option.some.inj h⟩

theorem property?_eq {text name behind : List Char} {w : List Char × List Char}
    (hword : leadingWord? text = some w) (hname : leadingWord? w.2 = some (name, rest))
    (hindex : pastIndex? rest = some behind) (v : Visibility) (line : Nat) :
    property? text v line =
      some { name := String.ofList name, typeName := specifiedType? behind, visibility := v,
             isProperty := true, line } := by
  simp only [property?, hword, hname, Option.bind_eq_bind, Option.bind_some]
  rcases pastIndex?_cases hindex with ⟨inside, hinside, hmap⟩ | ⟨hbracket, rfl⟩
  · simp only [hinside, hmap, Option.bind_some]
    rfl
  · split
    · next inside hinside => exact absurd hinside (hbracket inside)
    · rfl

theorem pastIndex?_text {ps : List Param} (h : ∀ p ∈ ps, IsFreeParam p)
    (hrest : (trimStart rest).head? ≠ some '[') :
    pastIndex? (indexText ps ++ rest) = some (trimStart rest) := by
  cases ps with
  | nil =>
    rw [indexText, List.nil_append, pastIndex?]
    split
    · next inside hinside => simp [hinside] at hrest
    · rfl
  | cons p ps =>
    have hfree := isBracketFree_groupsText fun q hq => (h q hq).isPlainParam
    have hsplit : indexText (p :: ps) ++ rest = '[' :: (groupsText (p :: ps) ++ ']' :: rest) := by
      simp [indexText]
    have hstart : trimStart ('[' :: (groupsText (p :: ps) ++ ']' :: rest)) =
        '[' :: (groupsText (p :: ps) ++ ']' :: rest) := rfl
    have hclose : splitAtClose? '[' ']' ('[' :: (groupsText (p :: ps) ++ ']' :: rest)) =
        some ('[' :: groupsText (p :: ps), rest) := splitAtClose?_append rfl rfl hfree
    rw [hsplit, pastIndex?, hstart]
    simp only [hclose, Option.map_some]

theorem head?_trimStart_specifiersText {specifiers : List (String × String)}
    (h : ∀ s ∈ specifiers, s.1 ∈ propertySpecifiers ∧ IsFreeName s.2) :
    ∀ c ∈ (trimStart (specifiersText specifiers)).head?, isIdent c = true := by
  have hall : ∀ w ∈ propertySpecifiers, isIdentifier w.toList = true := by decide
  cases specifiers with
  | nil => simp [specifiersText, trimStart]
  | cons s specifiers =>
    obtain ⟨⟨hword, -⟩, -⟩ := List.forall_mem_cons.mp h
    rw [specifiersText_cons]
    generalize ' ' :: (s.2.toList ++ specifiersText specifiers) = behind
    obtain ⟨hhead, hblank⟩ := @head?_name _ behind (hall s.1 hword)
    rw [trimStart, dropWhile_append_of_head? (List.all_eq_true.mp (by decide)) hblank]
    intro c hc
    rwa [Option.mem_def.mp hc] at hhead

theorem find?_specifier {t : String} (ht : IsFreeName t) (hrest : rest.head?.any isIdent = false) :
    (words ([' '] ++ (t.toList ++ rest))).find? (·.isOneOf propertySpecifiers) =
      ((Cursor.ofText ([' '] ++ (t.toList ++ rest))).advance ([' '] ++ t.toList) rest).words.find?
        (·.isOneOf propertySpecifiers) := by
  obtain ⟨hne, hident⟩ := isIdent_of_isIdentifier ht.identifier
  have hfree : lowered t.toList ∉ propertySpecifiers := ht.not_mem_of_subset (by decide)
  have hskip (first behind : Cursor) :
      Word.isOneOf ⟨first, t.toList, behind⟩ propertySpecifiers = false := by
    simpa [Word.isOneOf, Word.lower, lowered] using hfree
  have hfirst := Cursor.nextWord?_of_after (c := .ofText ([' '] ++ (t.toList ++ rest))) rfl
    (List.forall_mem_singleton.mpr isIdent_space) hne hident hrest
  rw [words, Cursor.words_of_nextWord? hfirst]
  simp only [List.find?_cons, hskip]

theorem find?_specifier_cons {word : String} (hword : word ∈ propertySpecifiers) {c : Cursor}
    {behind : List Char} (hafter : c.after = [' '] ++ (word.toList ++ ' ' :: behind)) :
    c.words.find? (·.isOneOf propertySpecifiers) =
      some ⟨c.advance [' '] (word.toList ++ ' ' :: behind), word.toList,
        c.advance ([' '] ++ word.toList) (' ' :: behind)⟩ := by
  have hall : ∀ w ∈ propertySpecifiers, isIdentifier w.toList = true ∧ lowered w.toList = w := by
    decide
  obtain ⟨hidentifier, hlower⟩ := hall word hword
  obtain ⟨hne, hident⟩ := isIdent_of_isIdentifier hidentifier
  have hspec (first next : Cursor) :
      Word.isOneOf ⟨first, word.toList, next⟩ propertySpecifiers = true := by
    rw [Word.isOneOf, Word.lower, ← lowered, hlower]
    exact List.elem_eq_true_of_mem hword
  have hgap : ∀ c ∈ [' '], isIdent c = false := List.forall_mem_singleton.mpr isIdent_space
  have hrest : (' ' :: behind).head?.any isIdent = false := isIdent_space
  rw [Cursor.words_of_nextWord? (Cursor.nextWord?_of_after hafter hgap hne hident hrest)]
  simp only [List.find?_cons, hspec]

theorem squashed?_takeBytes {t : String} (ht : IsFreeName t) (rest : List Char) :
    squashed? (takeBytes (width (([' '] ++ t.toList) ++ [' ']))
      ([' '] ++ (t.toList ++ ([' '] ++ rest)))) = some t := by
  have hsplit : [' '] ++ (t.toList ++ ([' '] ++ rest)) =
      (([' '] ++ t.toList) ++ [' ']) ++ rest := by simp
  obtain ⟨hne, hident⟩ := isIdent_of_isIdentifier ht.identifier
  have hrun := squash_of_run hne fun c hc => isBlank_of_isIdent (hident c hc)
  rw [hsplit, takeBytes_width_append]
  exact squashed?_of_squash hne ((squash_cons_space _).trans hrun.2)

/-- The type of a property ends at the first of its specifiers. -/
theorem specifiedType?_text {t : Option String} {specifiers : List (String × String)}
    (ht : ∀ s ∈ t, IsFreeName s)
    (h : ∀ s ∈ specifiers, s.1 ∈ propertySpecifiers ∧ IsFreeName s.2) :
    specifiedType? (trimStart (typeText t ++ specifiersText specifiers)) = t := by
  cases t with
  | none =>
    have hhead := head?_trimStart_specifiersText h
    rw [typeText, List.nil_append, specifiedType?.eq_def]
    split
    · next type htype =>
      rw [htype] at hhead
      exact absurd (hhead ':' rfl) (by decide)
    · rfl
  | some t =>
    have ht := ht t rfl
    have hstart : trimStart (typeText (some t) ++ specifiersText specifiers) =
        ':' :: ([' '] ++ (t.toList ++ specifiersText specifiers)) := rfl
    -- the type is the first word, and no specifier
    rw [hstart, specifiedType?, find?_specifier ht (isTame_specifiersText h).2]
    cases specifiers with
    | nil =>
      rw [Cursor.words_of_nextWord?_eq_none (Cursor.nextWord?_eq_none_iff.mpr
        (List.forall_mem_nil _)), List.find?_nil]
      simpa [specifiersText] using squashed?_typeText ht.isTypeText
    | cons s specifiers =>
      obtain ⟨⟨hword, -⟩, -⟩ := List.forall_mem_cons.mp h
      rw [specifiersText_cons, find?_specifier_cons hword (Cursor.after_advance ..)]
      simp only [Cursor.advance_advance, Word.start, Cursor.offset_advance, Cursor.ofText,
        Nat.zero_add]
      exact squashed?_takeBytes ht _

/-- The index and the type of a property, and what it is read and written by, are told apart. -/
theorem property?_text {name : String} {index : List Param} {typeName : Option String}
    {specifiers : List (String × String)}
    (h : (MemberText.property name index typeName specifiers).IsPlain) (v : Visibility)
    (line : Nat) :
    property? (MemberText.property name index typeName specifiers).front v line =
      some { name, typeName, visibility := v, isProperty := true, line } := by
  obtain ⟨hname, hindex, htype, hspecifiers⟩ := h
  have hfront : (MemberText.property name index typeName specifiers).front =
      "property".toList ++ ' ' :: (name.toList ++ (indexText index ++ (typeText typeName ++
        specifiersText specifiers))) := rfl
  have hhead := head?_indexText index typeName (isTame_specifiersText hspecifiers).2
  have hspace (cs : List Char) : (' ' :: cs).head?.any isIdent = false := isIdent_space
  have hproperty : isIdentifier "property".toList = true := by decide
  have hword := leadingWord?_identifier hname.identifier hhead
  rw [← leadingWord?_cons_space] at hword
  have hbracket : (trimStart (typeText typeName ++ specifiersText specifiers)).head? ≠
      some '[' := by
    cases typeName with
    | some t => exact fun h => absurd (Option.some.inj (h : some ':' = some '[')) (by decide)
    | none =>
      exact fun h => absurd (head?_trimStart_specifiersText hspecifiers '[' h) (by decide)
  rw [hfront, property?_eq (leadingWord?_identifier hproperty (hspace _)) hword
    (pastIndex?_text hindex hbracket), specifiedType?_text htype hspecifiers]
  simp

theorem readDeclaration_property (m : Members) {name : String} {index : List Param}
    {typeName : Option String} {specifiers : List (String × String)} (line : Nat)
    (h : (MemberText.property name index typeName specifiers).IsPlain) :
    m.readDeclaration s owner 0 0 (MemberText.property name index typeName specifiers).front line =
      { m with fields := m.fields ++
          [{ name, typeName, visibility := m.context.visibility, isProperty := true, line }] } := by
  have hspace (cs : List Char) : (' ' :: cs).head?.any isIdent = false := isIdent_space
  have hproperty : isIdentifier "property".toList = true := by decide
  have hword : (leadingWord? (MemberText.property name index typeName specifiers).front).map
      (fun (word, _) => lowered word) = some "property" := by
    have hsplit : (MemberText.property name index typeName specifiers).front =
        "property".toList ++ ' ' :: (name.toList ++ (indexText index ++ (typeText typeName ++
          specifiersText specifiers))) := rfl
    have hlower : lowered "property".toList = "property" := by decide
    rw [hsplit, leadingWord?_identifier hproperty (hspace _), Option.map_some]
    exact congrArg some hlower
  rw [Members.readDeclaration, hword, property?_text h]
  rfl

/-! ## Methods -/

theorem readDeclaration_method (m : Members) {header : Header} (line : Nat) (h : header.IsMember) :
    m.readDeclaration s owner 0 0 header.text line =
      Members.addMethod { m with context := { m.context with skipping := false } } s owner header
        line := by
  obtain ⟨hkind, hkeyword, -⟩ := routineKind?_tag h.kind
  have hspace (cs : List Char) : (' ' :: cs).head?.any isIdent = false := isIdent_space
  have hword : (leadingWord? header.text).map (fun (word, _) => lowered word) =
      some (lowered (tag header.kind).toList) := by
    rw [Header.text, leadingWord?_identifier hkeyword (hspace _), Option.map_some]
  simp only [Members.readDeclaration, hword, Option.bind_some, hkind, Option.isSome_some, if_true,
    Header.parse?_text h.isPlain]

theorem readDeclaration_directive (m : Members) {d : String} (line : Nat) (h : d ∈ directives) :
    m.readDeclaration s owner 0 0 d.toList line = m.addDirective d := by
  have hall : ∀ d ∈ directives,
      (leadingWord? d.toList).map (fun (word, _) => lowered word) = some d ∧
        routineKind? d = none := by decide
  obtain ⟨hword, hkind⟩ := hall d h
  simp only [Members.readDeclaration, hword, Option.bind_some, hkind, Option.isSome_none,
    Option.any_some, List.contains_eq_mem, h, decide_true, if_true, Bool.false_eq_true, if_false,
    Option.getD_some]

end Declarations

/-! ## Statements -/

section Statements

variable {source : Masked} {s : ExtractionSettings} {owner : String} {m : Members} {n : Nat}
  {lead text : List Char}

theorem noteStatement_declaration (classLevel : Bool) (hm : m.recordDepth = 0)
    (hlead : ∀ c ∈ lead, isBlank c = true) (hstart : StartsFreeOf MemberContext.prefixWords text)
    (hend : StartsVisibly text.reverse) (htame : IsTame (classWord classLevel ++ text)) :
    noteStatement source s owner m (n, lead ++ (classWord classLevel ++ text)) =
      Members.readDeclaration { m with context := { m.context with classLevel } } s owner 0 0 text
        (source.lineAt (n + width lead + width (classWord classLevel))) := by
  have hvisible : StartsVisibly (classWord classLevel ++ text) := by
    obtain ⟨word, rest, rfl, hword, -, -⟩ := hstart
    obtain ⟨hne, hident⟩ := isIdent_of_isIdentifier hword
    cases classLevel with
    | true => exact StartsVisibly.append (by decide) _
    | false => exact (startsVisibly_of_isIdent hne hident).1.append _
  have hvisible' : StartsVisibly (classWord classLevel ++ text).reverse := by
    rw [List.reverse_append]
    exact hend.append _
  have hne : text.isEmpty = false := by
    cases text with
    | nil => simp [StartsVisibly] at hend
    | cons c text => rfl
  rw [← List.append_nil (classWord classLevel ++ text), noteStatement_of_trim hlead
    (List.forall_mem_nil _) hvisible hvisible', note_eq_settle hm htame,
    MemberContext.read_classWord _ _ _ hstart, settle, Cursor.after_advance, hne]
  rfl

end Statements

/-! ## What has been read -/

/-- The members read so far are those of the declarations `found`, and what comes next has
visibility `v`. -/
structure Holds (s : ExtractionSettings) (owner : String) (m : Members) (v : Visibility)
    (found : List PlacedMember) : Prop where
  fields : m.fields = found.flatMap (·.fields)
  methods : m.methods = found.flatMap (·.methods s owner)
  components : m.components = found.flatMap (·.components s owner)
  visibility : m.context.visibility = v
  skipping : m.context.skipping = false
  recordDepth : m.recordDepth = 0

namespace Holds

variable {s : ExtractionSettings} {owner : String} {m : Members} {v : Visibility}
  {found : List PlacedMember} {line : Nat}

theorem withClassLevel (h : Holds s owner m v found) (classLevel : Bool) :
    Holds s owner { m with context := { m.context with classLevel } } v found := { h with }

theorem withVisibility (h : Holds s owner m v found) (v : Visibility) :
    Holds s owner { m with context := ⟨v, false, false⟩ } v found :=
  { h with visibility := rfl, skipping := rfl }

theorem fields_text (h : Holds s owner m v found) {names : List String} {t : String}
    (hplain : (MemberText.fields names t).IsPlain) :
    Holds s owner (m.readDeclaration s owner 0 0 (MemberText.fields names t).front line) v
      (found ++ [⟨v, line, .fields names t⟩]) := by
  rw [readDeclaration_fields m line h.skipping hplain, h.visibility]
  refine { h with fields := ?_, methods := ?_, components := ?_ }
  · simp [Members.addFields, h.fields, PlacedMember.fields]
  · simp [Members.addFields, h.methods, PlacedMember.methods]
  · simp [Members.addFields, h.components, PlacedMember.components, PlacedMember.fields]

theorem property_text (h : Holds s owner m v found) {name : String} {index : List Param}
    {typeName : Option String} {specifiers : List (String × String)}
    (hplain : (MemberText.property name index typeName specifiers).IsPlain) :
    Holds s owner
      (m.readDeclaration s owner 0 0
        (MemberText.property name index typeName specifiers).front line)
      v (found ++ [⟨v, line, .property name index typeName specifiers⟩]) := by
  rw [readDeclaration_property m line hplain, h.visibility]
  refine { h with fields := ?_, methods := ?_, components := ?_ }
  · simp [h.fields, PlacedMember.fields]
  · simp [h.methods, PlacedMember.methods]
  · simp [h.components, PlacedMember.components]

theorem method_text (h : Holds s owner m v found) {header : Header} (hheader : header.IsMember) :
    Holds s owner (m.readDeclaration s owner 0 0 header.text line) v
      (found ++ [⟨v, line, .method m.context.classLevel header []⟩]) := by
  rw [readDeclaration_method m line hheader]
  refine { h with fields := ?_, methods := ?_, components := ?_, skipping := rfl }
  · simp [Members.addMethod, h.fields, PlacedMember.fields]
  · simp [Members.addMethod, Header.toRoutine, Routine.takesSender, h.methods, h.visibility,
      PlacedMember.methods]
  · simp [Members.addMethod, h.components, PlacedMember.components]

theorem directive_text {classLevel : Bool} {header : Header} {words : List String} {d : String}
    (h : Holds s owner m v (found ++ [⟨v, line, .method classLevel header words⟩]))
    (hd : d ∈ directives) (n : Nat) :
    Holds s owner (m.readDeclaration s owner 0 0 d.toList n) v
      (found ++ [⟨v, line, .method classLevel header (words ++ [d])⟩]) := by
  let declared : PlacedMember := ⟨v, line, .method classLevel header (words ++ [d])⟩
  have hadd : m.addDirective d =
      { m with methods := (found ++ [declared]).flatMap (·.methods s owner) } := by
    simp [Members.addDirective, h.methods, PlacedMember.methods, declared]
  rw [readDeclaration_directive m n hd, hadd]
  refine { h with fields := ?_, methods := rfl, components := ?_ }
  · simp [h.fields, PlacedMember.fields]
  · simp [h.components, PlacedMember.components]

end Holds

end MigrationAudit.Pascal
