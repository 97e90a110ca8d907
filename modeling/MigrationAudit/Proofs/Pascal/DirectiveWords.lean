import MigrationAudit.Proofs.Pascal.Components
import MigrationAudit.Proofs.Pascal.DirectiveMarks

/-!
# Words that are directives and names

A statement of a class body is known by its first word. Most words that are tested for are reserved,
but directives and the words for visibility are names as well. A field with such a name at the front
of its declaration is lost, and a directive goes to the last method wherever it stands.
-/

namespace MigrationAudit.Pascal

open Text Source

/-! ## Fields -/

/-- The reserved words that a statement of a class body may start with. -/
def memberKeywords : List String :=
  ["class", "const", "type", "var", "procedure", "function", "constructor", "destructor",
    "property"]

/-- The other words that a statement is known by, most of them names as well. -/
def contextualWords : List String :=
  directives ++ ["strict", "private", "protected", "public", "automated", "published"]

/-- Words in front of a declaration, in lower case, each with white space behind it. -/
inductive IsLead : List Char → List String → Prop
  | nil : IsLead [] []
  | cons {word gap lead : List Char} {ws : List String} (isWord : isIdentifier word = true)
      (isPrefix : lowered word ∈ MemberContext.prefixWords) (gap_ne : gap ≠ [])
      (isGap : ∀ a ∈ gap, isBlank a = true) (once : lowered word = "class" → "class" ∉ ws)
      (rest : IsLead lead ws) : IsLead (word ++ (gap ++ lead)) (lowered word :: ws)

theorem IsLead.head? {lead text : List Char} {ws : List String} (h : IsLead lead ws)
    (htext : text.head?.any isIdent = true) : (lead ++ text).head?.any isIdent = true := by
  cases h with
  | nil => exact htext
  | cons isWord =>
    rw [List.append_assoc]
    exact (head?_name isWord).1

/-- The group is a declaration behind the words `ws`, and the name `first` is the first one. -/
structure FieldGroup.IsDeclaration (g : FieldGroup) (ws : List String) (first : List Char) :
    Prop where
  lead : IsLead g.lead ws
  isName : isIdentifier first = true
  isFree : lowered first ∉ memberKeywords
  names : ∃ gap more, g.names = first ++ (gap ++ more) ∧ (∀ a ∈ gap, isBlank a = true) ∧
    (more = [] ∨ more.head? = some ',')
  colon : ':' ∉ g.names

def FieldGroup.fields (source : Masked) (v : Visibility) (g : FieldGroup) : List Field :=
  (identifiers g.names).map fun name =>
    { name
      typeName :=
        if 0 < countKeywords g.text ["record"] false then some "record"
        else squashed? (before '=' g.type)
      visibility := v
      line := source.lineAt (g.start + width g.lead) }

theorem identifiers_append {first gap more : List Char} (hfirst : isIdentifier first = true)
    (hgap : ∀ a ∈ gap, isBlank a = true) (hmore : more = [] ∨ more.head? = some ',') :
    identifiers (first ++ (gap ++ more)) = String.ofList first :: identifiers more := by
  obtain ⟨hne, hident⟩ := isIdent_of_isIdentifier hfirst
  have hcomma : ',' ∉ first ++ gap := by
    rw [List.mem_append, not_or]
    exact ⟨not_mem_of_isIdent (by decide) hident, fun hmem => absurd (hgap ',' hmem) (by decide)⟩
  have hstart : StartsVisibly first := by
    simp [StartsVisibly, List.head?_eq_some_head hne,
      isBlank_of_isIdent (hident _ (List.head_mem hne))]
  have hend : StartsVisibly first.reverse := by
    simp [StartsVisibly, List.getLast?_eq_some_getLast hne,
      isBlank_of_isIdent (hident _ (List.getLast_mem hne))]
  have htrim : trim (first ++ gap) = first :=
    (trim_append (List.forall_mem_nil _) hgap hstart hend).1
  have hnil : isIdentifier (trim []) = false := rfl
  rw [← List.append_assoc]
  rcases hmore with rfl | hmore
  · rw [List.append_nil, identifiers, identifiers, splitAll_eq_singleton hcomma]
    simp [htrim, hfirst, splitAll, hnil]
  · obtain ⟨rest, rfl⟩ := List.head?_eq_some_iff.mp hmore
    rw [identifiers, identifiers, splitAll_append hcomma]
    simp [htrim, hfirst, splitAll, hnil]

/-- Behind the first name of a declaration stands white space or a mark, and the other names stand
between that and the colon. -/
theorem FieldGroup.IsDeclaration.exists_text {g : FieldGroup} {ws : List String}
    {first : List Char} (hg : g.IsDeclaration ws first) :
    ∃ gap more, g.names ++ ':' :: g.type = first ++ (gap ++ (more ++ ':' :: g.type)) ∧
      (gap ++ (more ++ ':' :: g.type)).head?.any isIdent = false ∧
        (∀ a ∈ gap, isBlank a = true) ∧ (more ++ ':' :: g.type).head?.any isBlank = false ∧
          (more ++ ':' :: g.type).head?.any isIdent = false ∧
            ':' ∉ more ∧ identifiers g.names = String.ofList first :: identifiers more := by
  obtain ⟨gap, more, hnames, hgap, hmore⟩ := hg.names
  have hcolon := hg.colon
  rw [hnames, List.mem_append, List.mem_append, not_or, not_or] at hcolon
  have hmark : (more ++ ':' :: g.type).head?.any isBlank = false ∧
      (more ++ ':' :: g.type).head?.any isIdent = false := by
    rcases hmore with rfl | hmore
    · exact ⟨(by decide : isBlank ':' = false), (by decide : isIdent ':' = false)⟩
    · obtain ⟨rest, rfl⟩ := List.head?_eq_some_iff.mp hmore
      exact ⟨(by decide : isBlank ',' = false), (by decide : isIdent ',' = false)⟩
  refine ⟨gap, more, by simp [hnames], ?_, hgap, hmark.1, hmark.2, hcolon.2.2,
    hnames ▸ identifiers_append hg.isName hgap hmore⟩
  cases gap with
  | nil => exact hmark.2
  | cons b gap => simpa using (ends_of_isBlank hgap).1

theorem leadingWord?_of_head? {cs : List Char} (hblank : cs.head?.any isBlank = false)
    (hident : cs.head?.any isIdent = false) : leadingWord? cs = none := by
  cases cs with
  | nil => rfl
  | cons a cs =>
    have hblank : isBlank a = false := by simpa using hblank
    have hident : isIdent a = false := by simpa using hident
    simp [leadingWord?, trimStart, hblank, hident]

namespace MemberContext

variable {m : MemberContext} {vs ws : List String} {c : Cursor} {word lead text : List Char}

theorem exists_note? {w : String} (h : w ∈ prefixWords)
    (hclass : w = "class" → m.classLevel = false) :
    ∃ m', m.note? w = some m' ∧ (m'.classLevel = true → m.classLevel = true ∨ w = "class") := by
  simp only [prefixWords, List.mem_cons, List.not_mem_nil, or_false] at h
  rcases h with rfl | rfl | rfl | rfl | rfl | rfl | rfl | rfl | rfl | rfl
  case inr.inr.inr.inr.inl =>
    exact ⟨{ m with classLevel := true }, by simp [note?, hclass], fun _ => .inr rfl⟩
  all_goals exact ⟨_, rfl, .inl⟩

theorem exists_read_lead (h : IsLead lead ws) (hafter : c.after = lead ++ text)
    (htext : text.head?.any isIdent = true) (hclass : m.classLevel = true → "class" ∉ ws)
    (hstands : m.StandsBehind vs) :
    ∃ m' : MemberContext, m'.StandsBehind (vs ++ ws) ∧
      m.read c = m'.read (c.advance lead text) := by
  induction h generalizing m c vs with
  | nil =>
    have hself : c.advance [] text = c := by
      obtain ⟨offset, before, after⟩ := c
      simp only [List.nil_append] at hafter
      simp [Cursor.advance, width, hafter]
    exact ⟨m, by rwa [List.append_nil], by rw [hself]⟩
  | @cons word gap lead ws isWord isPrefix gap_ne isGap once rest ih =>
    have hlevel : lowered word = "class" → m.classLevel = false := by
      intro hword
      by_contra hne
      exact hclass (by simpa using hne) (hword ▸ List.mem_cons_self)
    obtain ⟨m', hnote, hlevel'⟩ := exists_note? isPrefix hlevel
    have hhead := rest.head? htext
    have hblank : (lead ++ text).head?.any isBlank = false := by
      obtain ⟨a, rest', hrest⟩ : ∃ a rest', lead ++ text = a :: rest' :=
        List.exists_cons_of_ne_nil fun hnil => by simp [hnil] at hhead
      rw [hrest] at hhead ⊢
      exact isBlank_of_isIdent (by simpa using hhead)
    have hedge : (gap ++ (lead ++ text)).head?.any isIdent = false := by
      rw [List.head?_append_of_ne_nil _ gap_ne]
      exact (ends_of_isBlank isGap).1
    have hsplit : c.after = word ++ (gap ++ (lead ++ text)) := by rw [hafter]; simp
    have hclass' : m'.classLevel = true → "class" ∉ ws := by
      intro hm'
      rcases hlevel' hm' with hm | hword
      · exact fun hmem => hclass hm (List.mem_cons_of_mem _ hmem)
      · exact once hword
    obtain ⟨m'', hstands', hread⟩ := ih (c := c.advance (word ++ gap) (lead ++ text))
      (Cursor.after_advance ..) hclass' (hstands.note? hnote)
    refine ⟨m'', by simpa using hstands', ?_⟩
    rw [read_of_note? hsplit isWord hnote isGap hblank hedge, hread, Cursor.advance_advance]
    simp

theorem read_of_head? (hblank : c.after.head?.any isBlank = false)
    (hident : c.after.head?.any isIdent = false) : m.read c = (m, c) := by
  have hword : c.adjacentWord? = none := by
    obtain ⟨offset, before, after⟩ := c
    cases after with
    | nil => rfl
    | cons a rest =>
      have hblank : isBlank a = false := by simpa using hblank
      have hident : isIdent a = false := by simpa using hident
      simp [Cursor.adjacentWord?, Cursor.skipBlank, Cursor.skipWhile, Cursor.wordHere,
        Cursor.advance, hblank, hident]
  rw [read_eq, hword]

end MemberContext

namespace Members

variable {source : Masked} {s : ExtractionSettings} {owner : String} {m : Members}
  {vs ws : List String} {p : Nat × List Char} {g : FieldGroup} {first : List Char}

theorem fields_readFields {text names type : List Char} (opens closes line : Nat)
    (h : splitFirst? ':' text = some (names, type)) :
    (m.readFields s owner opens closes text line).fields =
      m.fields ++ (identifiers names).map fun name =>
        { name
          typeName := if 0 < opens then some "record" else squashed? (before '=' type)
          visibility := m.context.visibility
          line } := by
  rw [readFields, h]
  simp only [addFields]
  split <;> rfl

/-- No statement takes a field away. -/
theorem fields_isPrefix_note : m.fields <+: (note source s owner m p).fields := by
  by_cases hdepth : 0 < m.recordDepth
  · rw [note_of_recordDepth hdepth]
  rw [note_of_outside (by omega)]
  split
  · exact List.prefix_rfl
  · rw [readDeclaration_eq]
    cases declarationStart (m.declarationIn p).2.after with
    | header word => cases Header.parse? (m.declarationIn p).2.after <;> exact List.prefix_rfl
    | directive word =>
      simp only [addDirective]
      split <;> exact List.prefix_rfl
    | property =>
      cases property? (m.declarationIn p).2.after (m.declarationIn p).1.visibility
        (source.lineAt (m.declarationIn p).2.offset)
      · exact List.prefix_rfl
      · exact List.prefix_append _ _
    | other =>
      simp only
      split
      · exact List.prefix_rfl
      · cases hsplit : splitFirst? ':' (m.declarationIn p).2.after with
        | none =>
          rw [readFields, hsplit]
        | some parts =>
          rw [fields_readFields _ _ _ hsplit]
          exact List.prefix_append _ _

theorem fields_isPrefix_foldl (ps : List (Nat × List Char)) (m : Members) :
    m.fields <+: (ps.foldl (note source s owner) m).fields := by
  induction ps generalizing m with
  | nil => exact List.prefix_rfl
  | cons p ps ih => exact fields_isPrefix_note.trans (ih _)

theorem routineKind?_of_not_mem {word : String} (h : word ∉ memberKeywords) :
    routineKind? word = none := by
  unfold routineKind?
  split
  all_goals first
    | rfl
    | simp_all [memberKeywords]

/-- A declaration of fields is a directive by its first word or nothing else. -/
theorem declarationStart_group (hg : g.IsDeclaration ws first) :
    declarationStart (g.names ++ ':' :: g.type) =
      if lowered first ∈ directives then .directive (lowered first) else .other := by
  obtain ⟨hne, hident⟩ := isIdent_of_isIdentifier hg.isName
  obtain ⟨gap, more, htext, hrest, -⟩ := hg.exists_text
  have hproperty : lowered first ≠ "property" := fun heq => hg.isFree (heq ▸ by decide)
  rw [htext, declarationStart, leadingWord?_append hne hident hrest]
  simp [routineKind?_of_not_mem hg.isFree, hproperty]

theorem exists_declarationIn (hstands : m.context.StandsBehind vs)
    (hg : g.IsDeclaration ws first) :
    ∃ context : MemberContext, context.StandsBehind (vs ++ ws) ∧
      m.declarationIn (g.start, g.text) = context.read
        (Cursor.advance ⟨g.start, [], g.text⟩ g.lead (g.names ++ ':' :: g.type)) := by
  obtain ⟨gap, more, htext, -⟩ := hg.exists_text
  have hhead : (g.names ++ ':' :: g.type).head?.any isIdent = true := by
    rw [htext]
    exact (head?_name hg.isName).1
  have hclass : MemberContext.StandsBehind { m.context with classLevel := false } vs :=
    ⟨hstands.visibility_eq, hstands.skipping_eq⟩
  exact MemberContext.exists_read_lead hg.lead rfl hhead (by simp) hclass

/-- A name that is no word in front of declarations is where its declaration starts. -/
theorem exists_declarationIn_name (hstands : m.context.StandsBehind vs)
    (hg : g.IsDeclaration ws first) (hfirst : lowered first ∉ MemberContext.prefixWords) :
    ∃ context : MemberContext, context.StandsBehind (vs ++ ws) ∧
      m.declarationIn (g.start, g.text) =
        (context, Cursor.advance ⟨g.start, [], g.text⟩ g.lead (g.names ++ ':' :: g.type)) := by
  obtain ⟨context, hcontext, hread⟩ := exists_declarationIn hstands hg
  obtain ⟨gap, more, htext, hrest, -⟩ := hg.exists_text
  refine ⟨context, hcontext, ?_⟩
  rw [hread, MemberContext.read_of_startsFreeOf]
  exact ⟨first, _, htext, hg.isName, hfirst, hrest⟩

theorem note_of_declarationIn {context : MemberContext} {c : Cursor} (hdepth : m.recordDepth = 0)
    (hread : m.declarationIn p = (context, c)) (hne : c.after ≠ []) :
    note source s owner m p =
      readDeclaration { m with context } s owner (countKeywords p.2 ["record"] false)
        (countKeywords p.2 ["end"] false) c.after (source.lineAt c.offset) := by
  have hempty : ¬c.after.isEmpty = true := by simpa using hne
  rw [note_of_outside hdepth, hread, if_neg hempty]

/-- Behind a name that is a word in front of declarations its declaration starts at a mark. -/
theorem exists_declarationIn_prefixWord (hstands : m.context.StandsBehind vs)
    (hg : g.IsDeclaration ws first) (hfirst : lowered first ∈ MemberContext.prefixWords) :
    ∃ (context : MemberContext) (c : Cursor) (more : List Char),
      m.declarationIn (g.start, g.text) = (context, c) ∧ c.after = more ++ ':' :: g.type ∧
        declarationStart c.after = .other ∧ ':' ∉ more ∧
          (identifiers more).length < (identifiers g.names).length := by
  obtain ⟨context, -, hread⟩ := exists_declarationIn hstands hg
  obtain ⟨gap, more, htext, hrest, hgap, hblank, hident, hcolon, hids⟩ := hg.exists_text
  have hclass : lowered first = "class" → context.classLevel = false := fun h =>
    absurd (h ▸ by decide) hg.isFree
  obtain ⟨context', hnote, -⟩ := MemberContext.exists_note? hfirst hclass
  rw [MemberContext.read_of_note? ((Cursor.after_advance ..).trans htext) hg.isName hnote hgap
    hblank hrest, MemberContext.read_of_head? hblank hident] at hread
  refine ⟨_, _, more, hread, Cursor.after_advance .., ?_, hcolon, by simp [hids]⟩
  rw [Cursor.after_advance, declarationStart, leadingWord?_of_head? hblank hident]

theorem fields_ne_nil (hg : g.IsDeclaration ws first) (v : Visibility) :
    g.fields source v ≠ [] := by
  obtain ⟨gap, more, -, -, -, -, -, -, hids⟩ := hg.exists_text
  simp [FieldGroup.fields, hids]

/-- A name that is a directive is taken for one, and its declaration yields no field. -/
theorem fields_note_of_directive (hdepth : m.recordDepth = 0)
    (hstands : m.context.StandsBehind vs) (hg : g.IsDeclaration ws first)
    (hfirst : lowered first ∈ directives) :
    (note source s owner m (g.start, g.text)).fields = m.fields := by
  have hfront : lowered first ∉ MemberContext.prefixWords :=
    (by decide : ∀ w ∈ directives, w ∉ MemberContext.prefixWords) _ hfirst
  obtain ⟨context, -, hread⟩ := exists_declarationIn_name hstands hg hfront
  rw [note_of_declarationIn hdepth hread (by simp [Cursor.advance]), Cursor.after_advance,
    readDeclaration_eq, declarationStart_group hg, if_pos hfirst]
  simp only [addDirective]
  split <;> rfl

/-- A name that is a word in front of declarations is taken for one, and yields no field. -/
theorem fields_note_of_prefixWord (hdepth : m.recordDepth = 0)
    (hstands : m.context.StandsBehind vs) (hg : g.IsDeclaration ws first)
    (hfirst : lowered first ∈ MemberContext.prefixWords) (v : Visibility) :
    (note source s owner m (g.start, g.text)).fields ≠ m.fields ++ g.fields source v := by
  obtain ⟨context, c, more, hread, hafter, hstart, hcolon, hfewer⟩ :=
    exists_declarationIn_prefixWord hstands hg hfirst
  intro heq
  rw [note_of_declarationIn hdepth hread (by simp [hafter]), readDeclaration_eq, hstart] at heq
  have hlength := congrArg List.length heq
  simp only [hafter, FieldGroup.fields, List.length_append, List.length_map] at hlength
  split at hlength
  · simp only at hlength
    omega
  · rw [fields_readFields _ _ _ (splitFirst?_append hcolon), List.length_append,
      List.length_map] at hlength
    simp only at hlength
    omega

/-- Any other name declares a field, and so do the names behind it. -/
theorem fields_note_of_not_mem (hdepth : m.recordDepth = 0)
    (hstands : m.context.StandsBehind vs) (hg : g.IsDeclaration ws first)
    (hsection : inSection (vs ++ ws) = false) (hfront : lowered first ∉ MemberContext.prefixWords)
    (hdirective : lowered first ∉ directives) :
    (note source s owner m (g.start, g.text)).fields =
      m.fields ++ g.fields source (visibilityOf (vs ++ ws)) := by
  obtain ⟨context, hcontext, hread⟩ := exists_declarationIn_name hstands hg hfront
  rw [note_of_declarationIn hdepth hread (by simp [Cursor.advance]), Cursor.after_advance,
    readDeclaration_eq, declarationStart_group hg, if_neg hdirective]
  have hskipping : context.skipping = false := hcontext.skipping_eq.trans hsection
  simp only [hskipping, Bool.false_eq_true, if_false]
  rw [fields_readFields _ _ _ (splitFirst?_append hg.colon)]
  simp only [FieldGroup.fields, ← hcontext.visibility_eq]
  rfl

theorem mem_contextualWords_iff {w : String} (h : w ∉ memberKeywords) :
    w ∈ contextualWords ↔ w ∈ directives ∨ w ∈ MemberContext.prefixWords := by
  constructor
  · exact (by decide : ∀ w ∈ contextualWords, w ∈ directives ∨ w ∈ MemberContext.prefixWords) w
  · rintro (hdirective | hfront)
    · exact List.mem_append_left _ hdirective
    · have hall : ∀ w ∈ MemberContext.prefixWords, w ∈ memberKeywords ∨ w ∈ contextualWords := by
        decide
      exact (hall w hfront).resolve_left h

/-- The step: a declaration of fields yields them exactly when its first name is no word that a
statement is known by. -/
theorem fields_note_iff (hdepth : m.recordDepth = 0) (hstands : m.context.StandsBehind vs)
    (hg : g.IsDeclaration ws first) (hsection : inSection (vs ++ ws) = false) :
    (note source s owner m (g.start, g.text)).fields =
        m.fields ++ g.fields source (visibilityOf (vs ++ ws)) ↔
      lowered first ∉ contextualWords := by
  rw [mem_contextualWords_iff hg.isFree, not_or]
  refine ⟨fun heq => ⟨fun hdirective => ?_, fun hfront => ?_⟩, fun ⟨hdirective, hfront⟩ =>
    fields_note_of_not_mem hdepth hstands hg hsection hfront hdirective⟩
  · rw [fields_note_of_directive hdepth hstands hg hdirective] at heq
    exact fields_ne_nil hg _ (List.self_eq_append_right.mp heq)
  · exact fields_note_of_prefixWord hdepth hstands hg hfront _ heq

/-- To the methods, a declaration of fields is a directive exactly when its first name is one. -/
theorem markOf_group (hdepth : m.recordDepth = 0) (hstands : m.context.StandsBehind vs)
    (hg : g.IsDeclaration ws first) :
    markOf source s owner m (g.start, g.text) =
      if lowered first ∈ directives then .directive (lowered first) else .other := by
  rw [markOf, if_neg (by omega)]
  by_cases hfront : lowered first ∈ MemberContext.prefixWords
  · have hdirective : lowered first ∉ directives :=
      (by decide : ∀ w ∈ MemberContext.prefixWords, w ∉ directives) _ hfront
    obtain ⟨context, c, more, hread, -, hstart, -⟩ :=
      exists_declarationIn_prefixWord hstands hg hfront
    simp only [hread, hstart]
    rw [if_neg hdirective]
  · obtain ⟨context, -, hread⟩ := exists_declarationIn_name hstands hg hfront
    simp only [hread, Cursor.after_advance, declarationStart_group hg]
    by_cases hdirective : lowered first ∈ directives
    · simp only [if_pos hdirective]
    · simp only [if_neg hdirective]

/-! ## Bodies -/

/-- A statement of a class body that declares fields outside constants, types and nested records,
behind other statements. -/
structure IsFieldGroup (source : Masked) (s : ExtractionSettings) (owner : String) (body : Span)
    (before : List (Nat × List Char)) (g : FieldGroup) (ws : List String) (first : List Char) :
    Prop where
  stands : ∃ after, statements body.start (body.slice source.code) =
    before ++ (g.start, g.text) :: after
  recordDepth_eq : (behind source s owner before).recordDepth = 0
  declares : g.IsDeclaration ws first
  inSection_eq : inSection (sectionWordsOf source s owner {} before ++ ws) = false

/-- A declaration of fields yields one for each name, with the visibility set last, exactly when its
first name is neither a directive nor a word for visibility, and it is itself a directive to the
methods when that name is one. The methods are those that are declared, each with all directives up
to the next one, and these stand in a row behind each method exactly when no directive that
something else stands in front of comes behind a method. -/
theorem read_directiveWords (source : Masked) (s : ExtractionSettings) (owner : String)
    (body : Span) :
    (∀ before g ws first, IsFieldGroup source s owner body before g ws first →
      let m := behind source s owner before
      let behindGroup := note source s owner m (g.start, g.text)
      (behindGroup.fields = m.fields ++
          g.fields source (visibilityOf (sectionWordsOf source s owner {} before ++ ws)) ↔
        lowered first ∉ contextualWords) ∧
      behindGroup.fields <+: (read source s owner body).fields ∧
      markOf source s owner m (g.start, g.text) =
        if lowered first ∈ directives then .directive (lowered first) else .other) ∧
    let marks := marksOf source s owner {} (statements body.start (body.slice source.code))
    (read source s owner body).methods = Mark.methods false marks ∧
      ((read source s owner body).methods = Mark.methods true marks ↔
        ∀ before, Mark.IsStray marks before → ∀ r, .method r ∉ before) := by
  have hmethods : (read source s owner body).methods = Mark.methods false
      (marksOf source s owner {} (statements body.start (body.slice source.code))) :=
    (methods_foldl _ _).trans (Mark.foldl_apply _)
  refine ⟨fun before g ws first hg => ?_, hmethods, ?_⟩
  · have hstands : (behind source s owner before).context.StandsBehind _ :=
      standsBehind_behind before
    refine ⟨fields_note_iff hg.recordDepth_eq hstands hg.declares hg.inSection_eq, ?_,
      markOf_group hg.recordDepth_eq hstands hg.declares⟩
    obtain ⟨after, hafter⟩ := hg.stands
    rw [read, hafter, List.foldl_append]
    exact fields_isPrefix_foldl after _
  · rw [hmethods]
    exact Mark.methods_eq_iff _

/-- A body with a method and two fields, the last one with the name of a directive. -/
def mail : Masked := .of .pascal "procedure Send; Subject: string; Message: string;".toList

def mailMethod : Routine where
  name := "Send"
  owner := some "TMail"
  kind := .procedure
  visibility := some .publishedAccess
  line := 1

def mailBefore : List (Nat × List Char) :=
  [(0, "procedure Send".toList), (16, "Subject: string".toList)]

def mailGroup : FieldGroup := ⟨33, [], "Message".toList, " string".toList⟩

theorem read_directiveWords_mail :
    IsFieldGroup mail {} "TMail" ⟨0, 49⟩ mailBefore mailGroup [] "Message".toList ∧
      (note mail {} "TMail" (behind mail {} "TMail" mailBefore)
          (mailGroup.start, mailGroup.text)).fields ≠
        (behind mail {} "TMail" mailBefore).fields ++ mailGroup.fields mail (visibilityOf
          (sectionWordsOf mail {} "TMail" {} mailBefore ++ [])) ∧
      markOf mail {} "TMail" (behind mail {} "TMail" mailBefore)
        (mailGroup.start, mailGroup.text) = .directive "message" ∧
      (read mail {} "TMail" ⟨0, 49⟩).methods ≠ Mark.methods true (marksOf mail {} "TMail" {}
        (statements 0 ((Span.mk 0 49).slice mail.code))) := by
  have hgroup : IsFieldGroup mail {} "TMail" ⟨0, 49⟩ mailBefore mailGroup [] "Message".toList :=
    { stands := ⟨[], by decide +kernel⟩
      recordDepth_eq := by decide +kernel
      declares :=
        { lead := .nil
          isName := by decide
          isFree := by decide +kernel
          names := ⟨[], [], rfl, List.forall_mem_nil _, .inl rfl⟩
          colon := by decide }
      inSection_eq := by decide +kernel }
  obtain ⟨hfields, -, hmethods⟩ := read_directiveWords mail {} "TMail" ⟨0, 49⟩
  obtain ⟨hlost, -, hmark⟩ := hfields _ _ _ _ hgroup
  refine ⟨hgroup, fun heq => hlost.mp heq (by decide +kernel), hmark.trans (by decide +kernel), ?_⟩
  intro heq
  -- a field stands between the method and the name
  have hmarks : marksOf mail {} "TMail" {} (statements 0 ((Span.mk 0 49).slice mail.code)) =
      [.method mailMethod, .other, .directive "message"] := by decide +kernel
  exact hmethods.mp heq [.method mailMethod] ⟨"message", [], hmarks⟩ mailMethod
    (List.mem_singleton_self _)

end Members

end MigrationAudit.Pascal
