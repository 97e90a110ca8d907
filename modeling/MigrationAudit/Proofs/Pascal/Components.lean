import MigrationAudit.Pascal.Unit
import MigrationAudit.Proofs.Lists
import MigrationAudit.Proofs.Pascal.FieldGroups

/-!
# Dataset components of classes

A class records a component for every field with a component type. Each comes from a group of fields
among the statements of the body, and where that group is spelled plainly, the text declares the name
with its type in the form in which component names are looked for.
-/

namespace MigrationAudit.Pascal

open Text Source

variable {source : Masked} {s : ExtractionSettings} {owner : String} {m : Members} {op : DataOp}

/-- A statement of a body that declares fields: the words in front of the declaration, the names,
and what stands behind the first colon. -/
structure FieldGroup where
  start : Nat
  lead : List Char
  names : List Char
  type : List Char

namespace FieldGroup

def text (g : FieldGroup) : List Char := g.lead ++ (g.names ++ ':' :: g.type)

/-- The group declares a dataset component with a name and a type. -/
structure IsOrigin (g : FieldGroup) (s : ExtractionSettings) (name type : String) (op : DataOp) :
    Prop where
  name_mem : name ∈ identifiers g.names
  type_eq : type = "record" ∨ squashed? (before '=' g.type) = some type
  isComponent : s.isDatasetComponent type = true
  kind_eq : op.kind = .component
  raw_eq : op.raw = name ++ ": " ++ type
  componentType_eq : op.componentType = some type

/-- The declaration of a name is one that the pattern of component names can read: the name is the
last one of its group, both name and type are spelled as the pattern spells them, and a semicolon or
an equals sign stands behind the type. -/
structure IsPlain (g : FieldGroup) (code : List Char) (name type : String) : Prop where
  last : trim (lastPiece ',' g.names) = name.toList
  isName : IsPatternName name.toList
  isType : IsPatternType type.toList
  closed : '=' ∈ g.type ∨ (trimStart (dropBytes (g.start + width g.text) code)).head? = some ';'

instance (g : FieldGroup) (code : List Char) (name type : String) :
    Decidable (g.IsPlain code name type) :=
  decidable_of_iff (_ ∧ _ ∧ _ ∧ _)
    ⟨fun ⟨h₁, h₂, h₃, h₄⟩ => ⟨h₁, h₂, h₃, h₄⟩, fun ⟨h₁, h₂, h₃, h₄⟩ => ⟨h₁, h₂, h₃, h₄⟩⟩

end FieldGroup

/-! ## Components of a body -/

theorem component?_eq_some_iff {f : Field} :
    component? s owner f = some op ↔ ∃ type, f.typeName = some type ∧
      s.isDatasetComponent type = true ∧
        op = { kind := .component
               raw := f.name ++ ": " ++ type
               componentType := some type
               owner := some owner
               line := f.line } := by
  rw [component?, Option.bind_eq_some_iff]
  constructor
  · rintro ⟨type, htype, hop⟩
    split at hop
    · next hcomponent => exact ⟨type, htype, hcomponent, (Option.some.inj hop).symm⟩
    · simp at hop
  · rintro ⟨type, htype, hcomponent, rfl⟩
    exact ⟨type, htype, if_pos hcomponent⟩

theorem mem_components_readFields {opens closes line n : Nat} {lead text : List Char}
    (h : op ∈ (m.readFields s owner opens closes text line).components) :
    op ∈ m.components ∨ ∃ (g : FieldGroup) (name type : String), g.start = n ∧ g.lead = lead ∧
      g.text = lead ++ text ∧ g.IsOrigin s name type op := by
  simp only [Members.readFields] at h
  split at h
  · exact .inl h
  · next names type hsplit =>
    have htext := append_of_splitFirst? hsplit
    simp only [Members.addFields] at h
    rcases List.mem_append.mp h with h | h
    · left
      split at h <;> exact h
    · right
      obtain ⟨f, hf, hop⟩ := List.mem_filterMap.mp h
      obtain ⟨name, hname, rfl⟩ := List.mem_map.mp hf
      obtain ⟨t, ht, hcomponent, rfl⟩ := component?_eq_some_iff.mp hop
      refine ⟨⟨n, lead, names, type⟩, name, t, rfl, rfl, by rw [htext]; rfl, hname, ?_, hcomponent,
        rfl, rfl, rfl⟩
      split at ht
      · exact .inl (Option.some.inj ht).symm
      · exact .inr ht

theorem mem_components_readDeclaration {opens closes line : Nat} (n : Nat) (lead : List Char)
    {text : List Char}
    (h : op ∈ (m.readDeclaration s owner opens closes text line).components) :
    op ∈ m.components ∨ ∃ (g : FieldGroup) (name type : String), g.start = n ∧ g.lead = lead ∧
      g.text = lead ++ text ∧ g.IsOrigin s name type op := by
  simp only [Members.readDeclaration] at h
  split at h
  · -- a method has no components
    left
    split at h <;> exact h
  · split at h
    · left
      simp only [Members.addDirective] at h
      split at h <;> exact h
    · split at h
      · left
        split at h <;> exact h
      · split at h
        · exact .inl h
        · exact mem_components_readFields h

/-- What one statement of a body adds to the components, its own group of fields declares. -/
theorem mem_components_note {p : Nat × List Char}
    (h : op ∈ (Members.note source s owner m p).components) :
    op ∈ m.components ∨ ∃ (g : FieldGroup) (name type : String), (g.start, g.text) = p ∧
      IsNameEdge g.lead (g.names ++ ':' :: g.type) ∧ g.IsOrigin s name type op := by
  obtain ⟨n, text⟩ := p
  simp only [Members.note] at h
  split at h
  · exact .inl h
  · generalize hcontext : { m.context with classLevel := false } = context at h
    have hlead := leads_memberContext context ⟨n, [], text⟩
    have hedge : IsNameEdge [] text → _ :=
      isNameEdge_memberContext context (c := ⟨n, [], text⟩)
    obtain ⟨moved, htext, hd⟩ := hlead
    have hbefore : (context.read ⟨n, [], text⟩).2.before.reverse = moved := by
      rw [hd]
      simp [Cursor.advance, List.reverseAux_eq]
    rw [hbefore] at hedge
    split at h
    · exact .inl h
    · rcases mem_components_readDeclaration n moved h with h |
        ⟨g, name, type, rfl, rfl, hg, horigin⟩
      · exact .inl h
      · refine .inr ⟨g, name, type, by rw [hg, ← htext], ?_, horigin⟩
        rw [← List.append_cancel_left hg] at hedge
        exact hedge (.of_getLast? rfl)

theorem mem_components_read {body : Span}
    (h : op ∈ (Members.read source s owner body).components) :
    ∃ (g : FieldGroup) (name type : String),
      (g.start, g.text) ∈ statements body.start (body.slice source.code) ∧
        IsNameEdge g.lead (g.names ++ ':' :: g.type) ∧ g.IsOrigin s name type op := by
  have hrun : ∀ (ps : List (Nat × List Char)) (m : Members),
      op ∈ (ps.foldl (Members.note source s owner) m).components →
        op ∈ m.components ∨ ∃ (g : FieldGroup) (name type : String), (g.start, g.text) ∈ ps ∧
          IsNameEdge g.lead (g.names ++ ':' :: g.type) ∧ g.IsOrigin s name type op := by
    intro ps
    induction ps with
    | nil => exact fun m h => .inl h
    | cons p ps ih =>
      intro m h
      rcases ih _ h with h | ⟨g, name, type, hmem, hg⟩
      · rcases mem_components_note h with h | ⟨g, name, type, heq, hg⟩
        · exact .inl h
        · exact .inr ⟨g, name, type, heq ▸ List.mem_cons_self, hg⟩
      · exact .inr ⟨g, name, type, List.mem_cons_of_mem p hmem, hg⟩
  exact (hrun _ _ h).resolve_left List.not_mem_nil

/-! ## Bodies of classes -/

theorem leads_classIntroduced? {c behind : Cursor} {name : List Char}
    (h : classIntroduced? c = some (name, behind)) : c.Leads behind := by
  simp only [classIntroduced?] at h
  split at h
  · obtain ⟨d, hd, heq⟩ := Option.map_eq_some_iff.mp h
    obtain ⟨-, rfl⟩ := Prod.mk.inj heq
    have hskip := (Cursor.leads_skipWhile isNameChar c).trans (Cursor.leads_skipWhile isBlank _)
    exact hskip.trans ((stopsBeforeEnd_introduced? ["class"]).leads _ d hd)
  · simp at h

theorem head?_of_keyword? {keywords : List String} {c d : Cursor}
    (h : keyword? keywords c = some d) : d.after.head?.any isNameChar = false := by
  simp only [keyword?] at h
  split at h
  · obtain rfl := Option.some.inj h
    exact head?_any_dropWhile isNameChar c.after
  · simp at h

theorem head?_of_introduced? {keywords : List String} {c d : Cursor}
    (h : introduced? keywords c = some d) : d.after.head?.any isNameChar = false := by
  rw [introduced?_eq] at h
  split at h
  · simp only [packedKeyword?] at h
    split at h
    · next e he => exact Option.some.inj h ▸ head?_of_keyword? he
    · split at h
      · split at h
        · exact head?_of_keyword? h
        · simp at h
      · simp at h
  · simp at h

theorem isNameEdge_body {c behind d : Cursor} {name : List Char}
    (h : classIntroduced? c = some (name, behind)) (hpast : pastModifiers? behind = some d) :
    IsNameEdge (ancestors d).2.before.reverse (ancestors d).2.after := by
  have hbehind : IsNameEdge behind.before.reverse behind.after := by
    simp only [classIntroduced?] at h
    split at h
    · obtain ⟨e, he, heq⟩ := Option.map_eq_some_iff.mp h
      obtain ⟨-, rfl⟩ := Prod.mk.inj heq
      exact .of_not_isNameChar (head?_of_introduced? he)
    · simp at h
  have hd : IsNameEdge d.before.reverse d.after := by
    simp only [pastModifiers?] at hpast
    split at hpast
    · next w hw =>
      have hword : w.behind.after.head?.any isIdent = false := by
        simp only [Cursor.adjacentWord?] at hw
        split at hw
        · simp at hw
        · obtain rfl := Option.some.inj hw
          exact head?_any_dropWhile isIdent _
      split at hpast
      · simp at hpast
      · simp at hpast
      · exact Option.some.inj hpast ▸ .of_not_isIdent hword
      · exact Option.some.inj hpast ▸ .of_not_isIdent hword
      · exact Option.some.inj hpast ▸ hbehind
    · exact Option.some.inj hpast ▸ hbehind
  by_cases hhead : d.skipBlank.after.head? = some '('
  · obtain ⟨rest, hafter⟩ := List.head?_eq_some_iff.mp hhead
    cases hsplit : splitAtClose? '(' ')' ('(' :: rest) with
    | none =>
      simp only [ancestors, hafter, hsplit]
      exact .of_not_isIdent rfl
    | some parts =>
      rw [ancestors_of_splitAtClose? hafter hsplit]
      refine .of_getLast? ?_
      rw [List.getLast?_reverse, Cursor.head?_before_advance, List.getLast?_concat, Option.some_or]
      simpa using (isNameChar_of_isTypeMark (show isTypeMark ')' = true from rfl)).1
  · rwa [ancestors_of_head? hhead]

/-- A body stops where its block does, or before the word that closes it. -/
theorem exists_bodyStop (c : Cursor) :
    ∃ d, c.Leads d ∧ d.offset ≤ ((scanBlock classStep c).stopCursor c).offset ∧
      (match (scanBlock classStep c).ending with
        | .closed w => w.start
        | _ => ((scanBlock classStep c).stopCursor c).offset) = d.offset := by
  have hlead := leads_scanBlock classStep c
  cases hending : (scanBlock classStep c).ending with
  | closed w =>
    rw [hending] at hlead
    refine ⟨w.first, hlead.1, ?_, rfl⟩
    simp only [BlockScan.stopCursor, hending]
    exact hlead.2.offset_le
  | aborted w => exact ⟨_, leads_stopCursor classStep c, le_rfl, rfl⟩
  | unterminated => exact ⟨_, leads_stopCursor classStep c, le_rfl, rfl⟩

/-- The members of a class are those of its body, which stands in the text behind its introducer. -/
structure ParsedClass.HasBody (source : Masked) (s : ExtractionSettings) (c : ParsedClass)
    (front body back : List Char) : Prop where
  code_eq : source.code = front ++ (body ++ back)
  edge : IsNameEdge front (body ++ back)
  start_le : c.span.start ≤ width front
  le_stop : width front + width body ≤ c.span.stop
  fields_eq : c.facts.fields = (Members.read source s c.facts.name
    ⟨width front, width front + width body⟩).fields
  methods_eq : c.facts.methods = (Members.read source s c.facts.name
    ⟨width front, width front + width body⟩).methods
  components_eq : c.components = (Members.read source s c.facts.name
    ⟨width front, width front + width body⟩).components

/-- A class stands on the line of its introducer, and it has no members or a body. -/
theorem exists_introducer_of_mem_findClasses {c : ParsedClass} (h : c ∈ findClasses source s) :
    ∃ first, (Cursor.ofText source.code).Leads first ∧ first.after ≠ [] ∧
      c.facts.line = source.lineAt first.offset ∧
        ((c.facts.fields = [] ∧ c.facts.methods = [] ∧ c.components = []) ∨
          ∃ front body back, c.HasBody source s front body back) := by
  obtain ⟨found, hfound, hread⟩ :=
    exists_foldl_withIntroduced source s [] (classIntroducers source.code)
  rw [findClasses_eq, hfound, List.nil_append] at h
  obtain ⟨i, hi, hread⟩ := hread c h
  obtain ⟨hfirst, hne, hintroduced⟩ := leads_of_mem_allMatches hi
  unfold ParsedClass.read? at hread
  cases hpast : pastModifiers? i.behind with
  | none => simp [hpast] at hread
  | some d =>
    simp only [hpast] at hread
    split at hread
    · simp at hread
    · split at hread
      · obtain rfl := Option.some.inj hread
        exact ⟨i.first, hfirst, hne, rfl, .inl ⟨rfl, rfl, rfl⟩⟩
      · obtain rfl := Option.some.inj hread
        have hedge := isNameEdge_body hintroduced hpast
        have hlead : i.first.Leads (ancestors d).2 :=
          ((leads_classIntroduced? hintroduced).trans
            (stopsBeforeEnd_pastModifiers?.leads _ d hpast)).trans (leads_ancestors d)
        refine ⟨i.first, hfirst, hne, rfl, .inr ?_⟩
        generalize (ancestors d).2 = b at *
        obtain ⟨e, ⟨moved, hafter, he⟩, hle, hstop⟩ := exists_bodyStop b
        have htext : b.text = source.code := (hfirst.trans hlead).text_eq
        have hoffset :=
          ((Cursor.standsIn_ofText source.code).of_leads (hfirst.trans hlead)).offset_eq
        have hwidth : e.offset = b.offset + width moved := by rw [he]; rfl
        have hfront : width b.before.reverse = b.offset := by rw [width_reverse, ← hoffset]
        simp only [ParsedClass.ofBody]
        refine ⟨b.before.reverse, moved, e.after, ?_, hafter ▸ hedge, ?_, ?_, ?_, ?_, ?_⟩
        · rw [← hafter, ← htext, Cursor.text]
        · rw [hfront]
          exact hlead.offset_le
        · rwa [hfront, ← hwidth]
        all_goals
          rw [hfront, ← hwidth, ← hstop]
          rfl

/-- The components of a class are those of its body, which stands in the text. -/
theorem exists_body_of_mem_findClasses {c : ParsedClass} (h : c ∈ findClasses source s)
    (hne : c.components ≠ []) :
    ∃ front body back, source.code = front ++ (body ++ back) ∧ IsNameEdge front (body ++ back) ∧
      c.span.start ≤ width front ∧ width front + width body ≤ c.span.stop ∧
        c.components = (Members.read source s c.facts.name
          ⟨width front, width front + width body⟩).components := by
  obtain ⟨first, -, -, -, ⟨-, -, hnil⟩ | ⟨front, body, back, hbody⟩⟩ :=
    exists_introducer_of_mem_findClasses h
  · exact absurd hnil hne
  · exact ⟨front, body, back, hbody.code_eq, hbody.edge, hbody.start_le, hbody.le_stop,
      hbody.components_eq⟩

/-! ## Plain declarations -/

namespace FieldGroup

variable {g : FieldGroup} {name type : String} {code : List Char}

theorem exists_names (hlast : trim (lastPiece ',' g.names) = name.toList)
    (hname : IsPatternName name.toList) :
    ∃ lead trail, g.names = lead ++ (name.toList ++ trail) ∧
      lead.getLast?.any isNameChar = false ∧ ∀ a ∈ trail, isBlank a = true := by
  obtain ⟨front, hnames, hfront⟩ := exists_append_lastPiece ',' g.names
  have hedge : front.getLast?.any isNameChar = false := by
    cases hcases : front.getLast? with
    | none => rfl
    | some a =>
      obtain rfl : a = ',' := by simpa [hcases] using hfront
      simpa using isNameChar_comma
  rcases exists_trimmed (lastPiece ',' g.names) with hblank |
    ⟨lead, text, trail, hpiece, hlead, htrail, hstart, hend⟩
  · -- a blank piece names nothing
    have hnil := hname.start
    rw [← hlast, trim_eq_nil hblank] at hnil
    simp at hnil
  · obtain ⟨htrim, -⟩ := trim_append hlead htrail hstart hend
    rw [hpiece, htrim] at hlast
    refine ⟨front ++ lead, trail, by rw [hnames, hpiece, hlast, List.append_assoc], ?_, htrail⟩
    by_cases hne : lead = []
    · rwa [hne, List.append_nil]
    · rw [List.getLast?_append_of_ne_nil _ hne]
      exact getLast?_of_isBlank hlead

theorem exists_type {back : List Char} (horigin : g.IsOrigin s name type op)
    (htype : IsPatternType type.toList)
    (hclosed : '=' ∈ g.type ∨ (trimStart back).head? = some ';') :
    ∃ gap gap' mark rest, g.type ++ back = gap ++ (type.toList ++ (gap' ++ mark :: rest)) ∧
      (∀ a ∈ gap ++ gap', isBlank a = true) ∧ isTypeMark mark = true := by
  have hrecord : type ≠ "record" := by
    rintro rfl
    exact absurd htype.start (by decide)
  obtain ⟨gap, gap', hbefore, hgaps⟩ :=
    exists_of_squashed? (fun a ha => isBlank_of_isNameChar (htype.chars a ha))
      (horigin.type_eq.resolve_left hrecord)
  obtain ⟨hgap, hgap'⟩ := List.forall_mem_append.mp hgaps
  have hsplit := List.takeWhile_append_dropWhile (p := (· != '=')) (l := g.type)
  have hhead := head?_any_dropWhile (· != '=') g.type
  cases hdrop : g.type.dropWhile (· != '=') with
  | cons a rest =>
    obtain rfl : a = '=' := by simpa [hdrop] using hhead
    refine ⟨gap, gap', '=', rest ++ back, ?_, hgaps, rfl⟩
    rw [before] at hbefore
    rw [← hsplit, hbefore, hdrop]
    simp
  | nil =>
    have hnone : '=' ∉ g.type := by
      intro hmem
      have := List.dropWhile_eq_nil_iff.mp hdrop '=' hmem
      simp at this
    obtain ⟨gap'', rest, rfl, hgap''⟩ := leadsWith_of_head?_trimStart (hclosed.resolve_left hnone)
    refine ⟨gap, gap' ++ gap'', ';', rest, ?_, ?_, rfl⟩
    · rw [before] at hbefore
      rw [← hsplit, hbefore, hdrop]
      simp
    · simp only [List.forall_mem_append]
      exact ⟨hgap, hgap', hgap''⟩

/-- What a class reads as a component in a plain declaration, the pattern reads as well. -/
theorem IsPlain.declares {front body back : List Char} (h : g.IsPlain code name type)
    (horigin : g.IsOrigin s name type op) (hcode : code = front ++ (body ++ back))
    (hfront : IsNameEdge front (body ++ back))
    (hmem : (g.start, g.text) ∈ statements (width front) body)
    (hlead : IsNameEdge g.lead (g.names ++ ':' :: g.type)) :
    Declares code name.toList type.toList := by
  obtain ⟨front', back', hbody, hstart, hfront'⟩ := exists_of_mem_statements hmem
  simp only at hbody hstart hfront'
  have hdrop : dropBytes (g.start + width g.text) code = back' ++ back := by
    have hsplit : code = (front ++ (front' ++ g.text)) ++ (back' ++ back) := by
      rw [hcode, hbody]
      simp
    have hwidth : g.start + width g.text = width (front ++ (front' ++ g.text)) := by
      rw [hstart, width_append, width_append, Nat.add_assoc]
    rw [hwidth, hsplit, dropBytes_width_append]
  obtain ⟨lead, trail, hnames, hedge, htrail⟩ := exists_names h.last h.isName
  obtain ⟨gap, gap', mark, rest, htype, hgaps, hmark⟩ :=
    exists_type horigin h.isType (hdrop ▸ h.closed)
  have htext : g.text ++ (back' ++ back) = g.lead ++ (lead ++ (name.toList ++
      (trail ++ ':' :: (gap ++ (type.toList ++ (gap' ++ mark :: rest)))))) := by
    rw [← htype, text, hnames]
    simp
  have hfront : IsNameEdge front (front' ++ (g.text ++ (back' ++ back))) := by
    rw [hbody] at hfront
    simpa using hfront
  have hne : g.text ++ back' ≠ [] := by simp [text]
  have hfront' : IsNameEdge front' (g.text ++ (back' ++ back)) := by
    have := hfront'.append_right hne back
    rwa [List.append_assoc] at this
  have hlead : IsNameEdge g.lead (lead ++ (name.toList ++
      (trail ++ ':' :: (gap ++ (type.toList ++ (gap' ++ mark :: rest)))))) := by
    have := hlead.append_right (by simp) (back' ++ back)
    rw [List.append_assoc, List.cons_append, htype, hnames] at this
    simpa using this
  -- no piece in front of the name ends in the middle of a name, so neither do all of them
  rw [htext] at hfront hfront'
  have hedges := ((hfront.append hfront').append hlead).append (.of_getLast? hedge)
  refine ⟨h.isName, h.isType, ((front ++ front') ++ g.lead) ++ lead, trail, gap, gap', mark, rest,
    ?_, hedges ?_, ?_, hmark⟩
  · have hsplit : code = front ++ (front' ++ (g.text ++ (back' ++ back))) := by
      rw [hcode, hbody]
      simp
    rw [hsplit, htext]
    simp
  · obtain ⟨a, rest', hcons⟩ : ∃ a rest', name.toList = a :: rest' :=
      List.exists_cons_of_ne_nil fun hnil => by simpa [hnil] using h.isName.start
    have hstart := h.isName.start
    rw [hcons] at hstart ⊢
    simpa [isPatternStart] using hstart
  · simp only [List.forall_mem_append] at hgaps ⊢
    exact ⟨htrail, hgaps.1, hgaps.2⟩

end FieldGroup

end MigrationAudit.Pascal
