import MigrationAudit.Proofs.Pascal.Declared
import MigrationAudit.Proofs.Pascal.LowerHeaders
import MigrationAudit.Proofs.Source.LowerCase

/-!
# Classes in lower case

The classes of a text in lower case are those of the text, put into lower case, and what type
declarations cover stays where it is.
-/

namespace MigrationAudit.Pascal

open Text Source

variable (source : Masked) (s : ExtractionSettings) (owner : String)

/-! ## Members -/

theorem MemberContext.read_lowerCase (m : MemberContext) (c : Cursor) :
    m.read c.lowerCase = ((m.read c).1, (m.read c).2.lowerCase) := by
  fun_induction read m c with
  | case1 m c hw => rw [read_eq, Cursor.adjacentWord?_lowerCase, hw, Option.map_none]
  | case2 m c w hw m' hm ih =>
    rw [read_eq, Cursor.adjacentWord?_lowerCase, hw, Option.map_some]
    simp only [Word.lower_lowerCase, hm, Word.behind_lowerCase, Cursor.skipBlank_lowerCase, ih]
  | case3 m c w hw hm =>
    rw [read_eq, Cursor.adjacentWord?_lowerCase, hw, Option.map_some]
    simp only [Word.lower_lowerCase, hm]

theorem pastIndex?_of_bracket {cs inside : List Char} (h : trimStart cs = '[' :: inside) :
    pastIndex? cs = (splitAtClose? '[' ']' ('[' :: inside)).map fun x => trimStart x.2 := by
  rw [pastIndex?, h]
  rfl

theorem pastIndex?_of_ne {cs : List Char} (h : ∀ inside, trimStart cs ≠ '[' :: inside) :
    pastIndex? cs = some (trimStart cs) := by
  unfold pastIndex?
  split
  · next inside hinside => exact absurd hinside (h inside)
  · rfl

theorem pastIndex?_lowerLatin (cs : List Char) :
    pastIndex? (lowerLatin cs) = (pastIndex? cs).map lowerLatin := by
  by_cases hopen : ∃ inside, trimStart cs = '[' :: inside
  · obtain ⟨inside, hinside⟩ := hopen
    have hlower : trimStart (lowerLatin cs) = '[' :: lowerLatin inside := by
      rw [trimStart_lowerLatin, hinside]
      rfl
    have hsplit : splitAtClose? '[' ']' ('[' :: lowerLatin inside) =
        (splitAtClose? '[' ']' ('[' :: inside)).map (Prod.map lowerLatin lowerLatin) :=
      splitAtClose?_lowerLatin rfl rfl ('[' :: inside)
    rw [pastIndex?_of_bracket hinside, pastIndex?_of_bracket hlower, hsplit, Option.map_map,
      Option.map_map]
    congr 1
    funext x
    simp
  · have hrest : ∀ inside, trimStart cs ≠ '[' :: inside := not_exists.mp hopen
    have hlower : ∀ inside, trimStart (lowerLatin cs) ≠ '[' :: inside := by
      rw [trimStart_lowerLatin]
      exact lowerLatin_ne_cons rfl hrest
    rw [pastIndex?_of_ne hrest, pastIndex?_of_ne hlower, trimStart_lowerLatin]
    rfl

theorem specifiedType?_lowerLatin (cs : List Char) :
    specifiedType? (lowerLatin cs) = (specifiedType? cs).map String.toLower := by
  unfold specifiedType?
  split
  · next h =>
    obtain ⟨tail, rfl, rfl⟩ := (lowerLatin_eq_cons_iff rfl).mp h
    have hspecifier : (fun w : Word => w.isOneOf propertySpecifiers) ∘ Word.lowerCase =
        fun w => w.isOneOf propertySpecifiers := by
      funext w
      simp
    simp only [words_lowerLatin, List.find?_map, hspecifier]
    cases (words tail).find? fun w => w.isOneOf propertySpecifiers <;> simp
  · next h =>
    split
    · next tail => exact absurd rfl (h (lowerLatin tail))
    · rfl

theorem property?_eq_bind (text : List Char) (v : Visibility) (line : Nat) :
    property? text v line =
      (leadingWord? text).bind fun w => (leadingWord? w.2).bind fun name =>
        (pastIndex? name.2).map fun behind =>
          { name := String.ofList name.1, typeName := specifiedType? behind, visibility := v,
            isProperty := true, line } := by
  unfold property?
  cases leadingWord? text with
  | none => rfl
  | some w =>
    cases hname : leadingWord? w.2 with
    | none => simp [hname]
    | some name =>
      simp only [Option.bind_eq_bind, Option.bind_some, hname]
      split
      · next inside hinside =>
        rw [pastIndex?_of_bracket hinside]
        cases splitAtClose? '[' ']' ('[' :: inside) <;> rfl
      · next h =>
        rw [pastIndex?_of_ne h]
        rfl

@[simp] theorem property?_lowerLatin (text : List Char) (v : Visibility) (line : Nat) :
    property? (lowerLatin text) v line = (property? text v line).map Field.lowerCase := by
  rw [property?_eq_bind, property?_eq_bind, leadingWord?_lowerLatin]
  cases leadingWord? text with
  | none => rfl
  | some w =>
    simp only [Option.map_some, Option.bind_some, Prod.map_snd, leadingWord?_lowerLatin]
    cases leadingWord? w.2 with
    | none => rfl
    | some name =>
      simp only [Option.map_some, Option.bind_some, Prod.map_fst, Prod.map_snd,
        pastIndex?_lowerLatin, Option.map_map]
      congr 1
      funext behind
      simp [specifiedType?_lowerLatin, Field.lowerCase]

theorem component?_lowerCase (f : Field) :
    component? s owner.toLower f.lowerCase = (component? s owner f).map DataOp.lowerCase := by
  obtain ⟨name, typeName⟩ := f
  cases typeName with
  | none => rfl
  | some type =>
    have hcolon : ": ".toLower = ": " := toLower_eq_self rfl
    simp only [component?, Field.lowerCase, Option.map_some, Option.bind_some,
      ExtractionSettings.isDatasetComponent_toLower]
    split
    · simp [DataOp.lowerCase, DataOpKind.isSql, hcolon]
    · rfl

namespace Members

def lowerCase (m : Members) : Members :=
  { m with
    fields := m.fields.map Field.lowerCase
    methods := m.methods.map Routine.lowerCase
    components := m.components.map DataOp.lowerCase }

variable (m : Members)

@[simp] theorem context_lowerCase : m.lowerCase.context = m.context := rfl

@[simp] theorem recordDepth_lowerCase : m.lowerCase.recordDepth = m.recordDepth := rfl

theorem addFields_lowerCase (fields : List Field) :
    m.lowerCase.addFields s owner.toLower (fields.map Field.lowerCase) =
      (m.addFields s owner fields).lowerCase := by
  simp [addFields, lowerCase, List.filterMap_map, List.map_filterMap, component?_lowerCase]

theorem addMethod_lowerCase (h : Header) (line : Nat) :
    m.lowerCase.addMethod s owner.toLower h.lowerCase line =
      (m.addMethod s owner h line).lowerCase := by
  have hsender := (h.toRoutine line).takesSender_lowerCase
  rw [← Header.toRoutine_lowerCase] at hsender
  simp only [addMethod, hsender]
  simp [lowerCase, Header.lowerCase, Header.toRoutine, Routine.lowerCase]

theorem addDirective_lowerCase (directive : String) :
    m.lowerCase.addDirective directive = (m.addDirective directive).lowerCase := by
  unfold addDirective
  simp only [lowerCase, List.getLast?_map]
  cases m.methods.getLast? with
  | none => rfl
  | some last => simp [Routine.lowerCase]

theorem readFields_lowerCase (opens closes : Nat) (text : List Char) (line : Nat) :
    m.lowerCase.readFields s owner.toLower opens closes (lowerLatin text) line =
      (m.readFields s owner opens closes text line).lowerCase := by
  simp only [readFields, splitFirst?_lowerLatin ':' rfl]
  cases splitFirst? ':' text with
  | none => rfl
  | some cut =>
    obtain ⟨names, type⟩ := cut
    have hfields : ∀ (m : Members) (typeName : Option String),
        m.lowerCase.addFields s owner.toLower ((identifiers (lowerLatin names)).map fun name =>
          { name, typeName := typeName.map String.toLower, visibility := m.context.visibility, line }) =
        (m.addFields s owner ((identifiers names).map fun name =>
          { name, typeName, visibility := m.context.visibility, line })).lowerCase := by
      intro m typeName
      rw [← addFields_lowerCase, identifiers_lowerLatin]
      simp [Field.lowerCase, Function.comp_def]
    have hrecord : "record".toLower = "record" := toLower_eq_self rfl
    by_cases hopens : 0 < opens
    · have := hfields { m with recordDepth := opens - closes } (some "record")
      rw [Option.map_some, hrecord] at this
      simp only [hopens, if_true, Option.map_some]
      exact this
    · have := hfields m (squashed? (before '=' type))
      simp only [hopens, if_false, Option.map_some, Prod.map_apply, before_lowerLatin '=' rfl,
        squashed?_lowerLatin]
      exact this

theorem readDeclaration_lowerCase (opens closes : Nat) (text : List Char) (line : Nat) :
    m.lowerCase.readDeclaration s owner.toLower opens closes (lowerLatin text) line =
      (m.readDeclaration s owner opens closes text line).lowerCase := by
  have hfirst : ((leadingWord? text).map (Prod.map lowerLatin lowerLatin)).map
      (fun x => lowered x.1) = (leadingWord? text).map fun x => lowered x.1 := by
    cases leadingWord? text <;> simp
  simp only [readDeclaration, leadingWord?_lowerLatin, hfirst, Header.parse?_lowerLatin,
    property?_lowerLatin, context_lowerCase]
  split
  · cases Header.parse? text with
    | none => rfl
    | some h =>
      exact addMethod_lowerCase s owner
        { m with context := { m.context with skipping := false } } h line
  · split
    · exact addDirective_lowerCase m _
    · split
      · cases property? text m.context.visibility line with
        | none => rfl
        | some field => simp [lowerCase]
      · by_cases hskipping : m.context.skipping = true
        · simp only [hskipping, if_true]
        · simp only [hskipping]
          exact readFields_lowerCase s owner m opens closes text line

theorem note_lowerCase (declaration : Nat × List Char) :
    note source.lowerCase s owner.toLower m.lowerCase (lowerPiece declaration) =
      (note source s owner m declaration).lowerCase := by
  obtain ⟨n, text⟩ := declaration
  by_cases hdepth : 0 < m.recordDepth
  · simp only [note, lowerPiece, countKeywords_lowerLatin, recordDepth_lowerCase, hdepth, if_true]
    rfl
  · have hread : ({ m.context with classLevel := false } : MemberContext).read
        ⟨n, [], lowerLatin text⟩ = _ :=
      MemberContext.read_lowerCase { m.context with classLevel := false } ⟨n, [], text⟩
    simp only [note, lowerPiece, countKeywords_lowerLatin, recordDepth_lowerCase, hdepth, if_false,
      context_lowerCase, hread]
    generalize ({ m.context with classLevel := false } : MemberContext).read ⟨n, [], text⟩ = read
    by_cases hempty : read.2.after.isEmpty = true
    · simp only [Cursor.after_lowerCase, isEmpty_lowerLatin, hempty, if_true]
      rfl
    · simp only [Cursor.after_lowerCase, isEmpty_lowerLatin, hempty]
      exact readDeclaration_lowerCase s owner { m with context := read.1 } _ _ read.2.after _

theorem read_lowerCase (body : Span) :
    Members.read source.lowerCase s owner.toLower body =
      (Members.read source s owner body).lowerCase := by
  rw [Members.read, Masked.code_lowerCase, slice_lowerLatin, statements_lowerLatin, List.foldl_map]
  change List.foldl _ (lowerCase {}) _ = _
  exact List.foldl_hom lowerCase fun m d => note_lowerCase source s owner m d

end Members

end MigrationAudit.Pascal
