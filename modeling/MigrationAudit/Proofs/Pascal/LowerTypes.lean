import MigrationAudit.Proofs.Pascal.EarlierClasses
import MigrationAudit.Proofs.Pascal.LowerMembers

/-!
# Type declarations in lower case

The classes of a text in lower case are those of the text, put into lower case. What records, objects
and interfaces cover stays where it is.
-/

namespace MigrationAudit.Pascal

open Text Source

variable (source : Masked) (s : ExtractionSettings)

/-! ## Bodies -/

theorem classStep_lowerCase (w : Word) : classStep w.lowerCase = classStep w := by
  have hof : (w.behind.adjacentWord?.map Word.lowerCase).any (·.lower == "of") =
      w.behind.adjacentWord?.any (·.lower == "of") := by
    cases w.behind.adjacentWord? <;> simp
  simp only [classStep, Word.lower_lowerCase, Word.first_lowerCase,
    Cursor.lastSignificant?_lowerCase, beq_toLower_some (p := '=') rfl, Word.behind_lowerCase,
    Cursor.adjacentWord?_lowerCase, hof]

theorem otherTypeStep_lowerCase (w : Word) : otherTypeStep w.lowerCase = otherTypeStep w := by
  simp only [otherTypeStep, Word.lower_lowerCase]

/-! ## Heads of classes -/

theorem pastModifiers?_lowerCase (c : Cursor) :
    pastModifiers? c.lowerCase = (pastModifiers? c).map Cursor.lowerCase := by
  simp only [pastModifiers?, Cursor.adjacentWord?_lowerCase]
  cases c.adjacentWord? with
  | none => rfl
  | some w =>
    simp only [Option.map_some, Word.lower_lowerCase]
    split <;> rfl

theorem semicolonFollows_lowerCase (c : Cursor) :
    semicolonFollows c.lowerCase = semicolonFollows c := by
  simp only [semicolonFollows, Cursor.skipBlank_lowerCase, Cursor.after_lowerCase, head?_lowerLatin,
    beq_toLower_some (p := ';') rfl]

theorem ancestors_of_unclosed {c : Cursor} {rest : List Char}
    (hafter : c.skipBlank.after = '(' :: rest)
    (hsplit : splitAtClose? '(' ')' ('(' :: rest) = none) :
    ancestors c = ((splitTopLevel ',' rest).map fun a => String.ofList (squash a), c.toEnd) := by
  simp only [ancestors, hafter, hsplit]

theorem ancestors_lowerCase (c : Cursor) :
    ancestors c.lowerCase = ((ancestors c).1.map String.toLower, (ancestors c).2.lowerCase) := by
  by_cases hopen : ∃ rest, c.skipBlank.after = '(' :: rest
  · obtain ⟨rest, hafter⟩ := hopen
    have hlower : c.lowerCase.skipBlank.after = '(' :: lowerLatin rest := by
      rw [Cursor.skipBlank_lowerCase, Cursor.after_lowerCase, hafter]
      rfl
    have hsplit : splitAtClose? '(' ')' ('(' :: lowerLatin rest) =
        (splitAtClose? '(' ')' ('(' :: rest)).map (Prod.map lowerLatin lowerLatin) :=
      splitAtClose?_lowerLatin rfl rfl ('(' :: rest)
    have hclose : [')'] = lowerLatin [')'] := rfl
    cases hcut : splitAtClose? '(' ')' ('(' :: rest) with
    | none =>
      rw [ancestors_of_unclosed hafter hcut,
        ancestors_of_unclosed hlower (by rw [hsplit, hcut, Option.map_none]),
        splitTopLevel_lowerLatin ',' rfl]
      simp [Function.comp_def]
    | some cut =>
      obtain ⟨inside, behind⟩ := cut
      rw [ancestors_of_splitAtClose? hafter hcut,
        ancestors_of_splitAtClose? hlower (by rw [hsplit, hcut, Option.map_some, Prod.map_apply]),
        drop_lowerLatin, splitTopLevel_lowerLatin ',' rfl, Cursor.skipBlank_lowerCase, hclose,
        ← lowerLatin_append, Cursor.advance_lowerCase]
      simp [Function.comp_def]
  · have hhead : ∀ d : Cursor, (∀ rest, d.skipBlank.after ≠ '(' :: rest) →
        d.skipBlank.after.head? ≠ some '(' := by
      intro d h hhead
      obtain ⟨rest, hrest⟩ := List.head?_eq_some_iff.mp hhead
      exact h rest hrest
    have hrest : ∀ rest, c.skipBlank.after ≠ '(' :: rest := not_exists.mp hopen
    have hlower : ∀ rest, c.lowerCase.skipBlank.after ≠ '(' :: rest := by
      rw [Cursor.skipBlank_lowerCase]
      exact lowerLatin_ne_cons rfl hrest
    rw [ancestors_of_head? (hhead c hrest), ancestors_of_head? (hhead _ hlower)]
    rfl

theorem withRoles_lowerCase (components : List DataOp) (c : ClassDecl) :
    withRoles s (components.map DataOp.lowerCase) c.lowerCase =
      (withRoles s components c).lowerCase := by
  simp [withRoles, ClassDecl.lowerCase, Option.any_map]

/-! ## Classes -/

namespace ParsedClass

def lowerCase (c : ParsedClass) : ParsedClass :=
  { c with
    facts := c.facts.lowerCase
    components := c.components.map DataOp.lowerCase }

@[simp] theorem facts_lowerCase (c : ParsedClass) : c.lowerCase.facts = c.facts.lowerCase := rfl

@[simp] theorem span_lowerCase (c : ParsedClass) : c.lowerCase.span = c.span := rfl

@[simp] theorem terminated_lowerCase (c : ParsedClass) : c.lowerCase.terminated = c.terminated := rfl

theorem ofBody_lowerCase (facts : ClassDecl) (start : Nat) (c : Cursor) :
    ofBody source.lowerCase s facts.lowerCase start c.lowerCase =
      (ofBody source s facts start c).lowerCase := by
  have hmembers : ∀ body, Members.read source.lowerCase s facts.lowerCase.name body =
      (Members.read source s facts.name body).lowerCase :=
    fun body => Members.read_lowerCase source s facts.name body
  have hroles : ∀ m : Members, withRoles s m.lowerCase.components
      { facts.lowerCase with fields := m.lowerCase.fields, methods := m.lowerCase.methods } =
        (withRoles s m.components { facts with fields := m.fields, methods := m.methods }).lowerCase :=
    fun m => withRoles_lowerCase s m.components { facts with fields := m.fields, methods := m.methods }
  simp only [ofBody, scanBlock_lowerCase classStep_lowerCase, BlockScan.stopCursor_lowerCase,
    BlockScan.isClosed_lowerCase, hmembers, hroles, Cursor.offset_lowerCase]
  obtain ⟨ending, maxDepth⟩ := scanBlock classStep c
  cases ending <;> rfl

theorem read?_lowerCase (i : Match (List Char)) :
    read? source.lowerCase s (i.lowerCase lowerLatin) = (read? source s i).map lowerCase := by
  simp only [read?, Match.lowerCase, pastModifiers?_lowerCase]
  cases pastModifiers? i.behind with
  | none => rfl
  | some c =>
    have hfacts : ({ name := String.ofList (lowerLatin i.value)
                     parent := ((ancestors c).1.map String.toLower).head?
                     interfaces := ((ancestors c).1.map String.toLower).tail
                     line := source.lineAt i.first.offset } : ClassDecl) =
        ({ name := String.ofList i.value
           parent := (ancestors c).1.head?
           interfaces := (ancestors c).1.tail
           line := source.lineAt i.first.offset } : ClassDecl).lowerCase := by
      simp [ClassDecl.lowerCase]
    simp only [Option.map_some, semicolonFollows_lowerCase, ancestors_lowerCase,
      Cursor.skipBlank_lowerCase, Cursor.after_lowerCase, head?_lowerLatin,
      beq_toLower_some (p := '(') rfl, Masked.lineAt_lowerCase, Cursor.offset_lowerCase, hfacts]
    split
    · rfl
    · split
      · simp [lowerCase, ← withRoles_lowerCase]
      · rw [Option.map_some, ofBody_lowerCase]

end ParsedClass

theorem withIntroduced_lowerCase (found : List ParsedClass) (i : Match (List Char)) :
    withIntroduced source.lowerCase s (found.map ParsedClass.lowerCase) (i.lowerCase lowerLatin) =
      (withIntroduced source s found i).map ParsedClass.lowerCase := by
  have hany : (found.map ParsedClass.lowerCase).any
      (fun c => c.terminated && c.span.contains i.first.offset) =
        found.any fun c => c.terminated && c.span.contains i.first.offset := by
    simp [Function.comp_def]
  simp only [withIntroduced, ParsedClass.read?_lowerCase]
  rw [show (i.lowerCase lowerLatin).first.offset = i.first.offset from rfl, hany]
  split
  · rfl
  · cases ParsedClass.read? source s i <;> simp

@[simp] theorem findClasses_lowerCase :
    findClasses source.lowerCase s = (findClasses source s).map ParsedClass.lowerCase := by
  rw [findClasses_eq, findClasses_eq, Masked.code_lowerCase, classIntroducers_lowerLatin,
    List.foldl_map]
  change List.foldl _ (List.map ParsedClass.lowerCase []) _ = _
  exact List.foldl_hom (List.map ParsedClass.lowerCase)
    fun found i => withIntroduced_lowerCase source s found i

theorem classDiagnostics_lowerCase (path : String) (classes : List ParsedClass) :
    classDiagnostics path (classes.map ParsedClass.lowerCase) =
      (classDiagnostics path classes).map Diagnostic.lowerCase := by
  have hreason : ∀ name : String, (s!"class '{name}' has no terminating end").toLower =
      s!"class '{name.toLower}' has no terminating end" := by
    intro name
    change ("class '" ++ name ++ "' has no terminating end").toLower = _
    rw [toLower_append, toLower_append, toLower_eq_self (s := "class '") rfl,
      toLower_eq_self (s := "' has no terminating end") rfl]
    rfl
  rw [classDiagnostics, List.filter_map, List.map_map, classDiagnostics, List.map_map]
  simp only [Function.comp_def, ParsedClass.terminated_lowerCase, Diagnostic.malformed,
    Diagnostic.lowerCase, hreason]
  rfl

/-! ## Records, objects and interfaces -/

@[simp] theorem findOtherTypes_lowerLatin (code : List Char) :
    findOtherTypes (lowerLatin code) = findOtherTypes code := by
  rw [findOtherTypes, otherIntroducers_lowerLatin, List.foldl_map, findOtherTypes]
  congr 1
  funext found i
  simp [Match.lowerCase, semicolonFollows_lowerCase, scanBlock_lowerCase otherTypeStep_lowerCase]

end MigrationAudit.Pascal
