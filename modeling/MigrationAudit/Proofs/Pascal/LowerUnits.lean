import MigrationAudit.Pascal.Section
import MigrationAudit.Proofs.Pascal.DatasetCalls
import MigrationAudit.Proofs.Pascal.Declarations
import MigrationAudit.Proofs.Pascal.LowerHeaders
import MigrationAudit.Proofs.Pascal.LowerImplementations
import MigrationAudit.Proofs.Sorted

/-!
# Units in lower case

A text in lower case has its sections where the text itself has them, and names the same units in
lower case. A unit is read from its masked source and from the names of its components. With the same
component names, a source in lower case is read as the unit of the source, put into lower case.
-/

namespace MigrationAudit.Pascal

open Text Source

/-! ## Headers of files -/

@[simp] theorem fileKind?_lowerLatin (word : List Char) :
    fileKind? (lowerLatin word) = fileKind? word := by
  simp [fileKind?]

@[simp] theorem someBlank?_lowerCase (c : Cursor) :
    someBlank? c.lowerCase = (someBlank? c).map Cursor.lowerCase := by
  simp only [someBlank?, Cursor.after_lowerCase, any_head?_lowerLatin ignoresCase_isBlank,
    Cursor.skipBlank_lowerCase]
  split <;> rfl

namespace FileHeader

def lowerCase (h : FileHeader) : FileHeader := { h with name := h.name.toLower }

theorem here?_lowerCase (c : Cursor) : here? c.lowerCase = (here? c).map lowerCase := by
  have hpart : IgnoresCase fun a => isNameChar a || a == '.' :=
    ignoresCase_isNameChar.or (ignoresCase_beq rfl)
  simp only [here?, Cursor.after_lowerCase, takeWhile_lowerLatin ignoresCase_isNameChar,
    fileKind?_lowerLatin, Cursor.skipWhile_lowerCase _ ignoresCase_isNameChar, someBlank?_lowerCase]
  cases fileKind? (c.after.takeWhile isNameChar) with
  | none => rfl
  | some kind =>
    cases someBlank? (c.skipWhile isNameChar) with
    | none => rfl
    | some name =>
      simp only [Option.bind_eq_bind, Option.bind_some, Option.map_some, Cursor.after_lowerCase,
        any_head?_lowerLatin ignoresCase_isFoldedNameStart, Cursor.skipWhile_lowerCase _ hpart,
        Cursor.skipBlank_lowerCase, takeWhile_lowerLatin hpart, Cursor.next_lowerCase]
      split
      · rfl
      · generalize ((name.skipWhile fun a => isNameChar a || a == '.').skipBlank) = behind
        split
        · next rest h =>
          obtain ⟨tail, htail, -⟩ := (lowerLatin_eq_cons_iff rfl).mp h
          rw [htail]
          simp [lowerCase]
        · next h =>
          split
          · next tail htail => exact absurd (by rw [htail]; rfl) (h (lowerLatin tail))
          · rfl

theorem find?_lowerLatin (code : List Char) :
    find? (lowerLatin code) = (find? code).map lowerCase := by
  have hline : Cursor.atLineStart ∘ Cursor.lowerCase = Cursor.atLineStart :=
    funext Cursor.atLineStart_lowerCase
  rw [find?, Cursor.places_lowerLatin, List.filter_map, hline, List.findSome?_map, find?,
    List.map_findSome?]
  congr 1
  funext c
  simp [here?_lowerCase]

end FileHeader

/-! ## Sections -/

@[simp] theorem SectionMarks.note_lowerCase (m : SectionMarks) (w : Word) :
    m.note w.lowerCase = m.note w := by
  have hstatement : (w.first.lastSignificant?.map Char.toLower).all (· == ';') =
      w.first.lastSignificant?.all (· == ';') := by
    cases w.first.lastSignificant? with
    | none => rfl
    | some a => exact beq_toLower (p := ';') rfl
  simp only [note, Word.lower_lowerCase, Word.first_lowerCase, Cursor.lastSignificant?_lowerCase,
    hstatement, Word.start_lowerCase, Word.stop_lowerCase]

@[simp] theorem Sections.find_lowerLatin (code : List Char) (start : Nat) :
    find (lowerLatin code) start = find code start := by
  simp [find, List.foldl_map, width_lowerLatin]

/-! ## Used units -/

theorem leadingDotted?_lowerLatin (item : List Char) :
    leadingDotted? (lowerLatin item) = (leadingDotted? item).map String.toLower := by
  have hpart : IgnoresCase fun a => isIdent a || a == '.' :=
    ignoresCase_isIdent.or (ignoresCase_beq rfl)
  simp only [leadingDotted?, trimStart_lowerLatin, takeWhile_lowerLatin hpart,
    trimWhere_lowerLatin (ignoresCase_beq (p := '.') rfl),
    any_head?_lowerLatin ignoresCase_isIdentStart, ← toLower_ofList]
  split <;> rfl

theorem usedUnits_lowerLatin (code : List Char) (s : Sections) :
    usedUnits (lowerLatin code) s = (usedUnits code s).map Dependency.lowerCase := by
  have huses : (fun w : Word => w.lower == "uses") ∘ Word.lowerCase =
      fun w => w.lower == "uses" := by
    funext w
    simp
  simp only [usedUnits, words_lowerLatin, List.filter_map, huses, List.flatMap_map, List.map_flatMap,
    Word.behind_lowerCase, Cursor.after_lowerCase, before_lowerLatin ';' rfl,
    splitTopLevel_lowerLatin ',' rfl, List.filterMap_map, Word.start_lowerCase]
  congr 1
  funext w
  simp [List.map_filterMap, Function.comp_def, leadingDotted?_lowerLatin, Dependency.lowerCase]

theorem dependencies_lowerLatin (code : List Char) (s : Sections) :
    dependencies (lowerLatin code) s = (dependencies code s).map Dependency.lowerCase := by
  rw [dependencies, usedUnits_lowerLatin, List.foldl_map, dependencies]
  change List.foldl _ (List.map Dependency.lowerCase []) _ = _
  refine List.foldl_hom (List.map Dependency.lowerCase) fun found d => ?_
  have hany : (found.map Dependency.lowerCase).any
      (fun e => e.name.toLower == d.name.toLower.toLower) =
        found.any fun e => e.name.toLower == d.name.toLower := by
    simp [Dependency.lowerCase, Function.comp_def]
  rw [show d.lowerCase.name = d.name.toLower from rfl, hany]
  split
  · rfl
  · rw [List.map_append, List.map_singleton]

/-! ## Data access -/

section DataAccess

variable (source : Masked) (s : ExtractionSettings) (components : List String)

theorem receiver?_lowerCase (c : Cursor) : receiver? c.lowerCase = (receiver? c).map lowerLatin := by
  simp only [receiver?, Cursor.before_lowerCase, dropWhile_lowerLatin ignoresCase_isBlank]
  split
  · next before h =>
    obtain ⟨tail, htail, rfl⟩ := (lowerLatin_eq_cons_iff rfl).mp h
    rw [htail]
    simp only [dropWhile_lowerLatin ignoresCase_isBlank, takeWhile_lowerLatin ignoresCase_isIdent]
    cases (tail.dropWhile isBlank).takeWhile isIdent <;> simp
  · next h =>
    split
    · next tail htail => exact absurd (by rw [htail]; rfl) (h (lowerLatin tail))
    · rfl

theorem callKind?_toLower (receiver method : String) :
    callKind? s components receiver.toLower method.toLower =
      callKind? s components receiver method := by
  simp [callKind?]

theorem isSql_of_callKind? {receiver method : String} {kind : DataOpKind}
    (h : callKind? s components receiver method = some kind) : kind.isSql = false := by
  unfold callKind? at h
  split at h
  · rw [← Option.some.inj h]
    rfl
  · split at h
    · rw [← Option.some.inj h]
      rfl
    · exact absurd h nofun

theorem findCalls_lowerCase (regions : List Span) (owners : List OwnerSpan) :
    findCalls source.lowerCase regions components (owners.map OwnerSpan.lowerCase) s =
      (findCalls source regions components owners s).map DataOp.lowerCase := by
  rw [findCalls, findCalls, List.map_flatMap]
  congr 1
  funext region
  rw [Masked.code_lowerCase, Cursor.within_lowerLatin, Cursor.words_lowerCase, List.filterMap_map,
    List.map_filterMap]
  congr 1
  funext w
  have hdot : ".".toLower = "." := toLower_eq_self rfl
  simp only [Function.comp_apply, Word.first_lowerCase, receiver?_lowerCase, Word.text_lowerCase,
    ← toLower_ofList, Word.start_lowerCase, Masked.lineAt_lowerCase, ownerAt?_lowerCase]
  cases receiver? w.first with
  | none => rfl
  | some receiver =>
    simp only [Option.map_some, Option.bind_eq_bind, Option.bind_some, ← toLower_ofList,
      callKind?_toLower]
    cases hkind : callKind? s components (String.ofList receiver) (String.ofList w.text) with
    | none => rfl
    | some kind =>
      have hsql := isSql_of_callKind? s components hkind
      simp [DataOp.lowerCase, hsql, hdot]

theorem findSql_lowerCase (owners : List OwnerSpan) :
    findSql source.lowerCase (owners.map OwnerSpan.lowerCase) =
      (findSql source owners).map DataOp.lowerCase := by
  rw [findSql, findSql, Masked.literals_lowerCase, List.map_filterMap]
  refine List.filterMap_congr fun x hx => ?_
  obtain ⟨l, -, hkind, -⟩ := Sql.literal_of_mem_statements hx
  have hsql := Sql.isSql_of_kindOf? hkind
  cases source.literals[x.literalIndex]? with
  | none => rfl
  | some literal => simp [DataOp.lowerCase, hsql, ownerAt?_lowerCase]

end DataAccess

/-! ## Units -/

section Units

variable (s : ExtractionSettings) (path : String) (source : Masked) (components : List String)

def sectionsOf (code : List Char) : Sections :=
  Sections.find code ((FileHeader.find? code).elim 0 (·.stop))

@[simp] theorem sectionsOf_lowerLatin (code : List Char) :
    sectionsOf (lowerLatin code) = sectionsOf code := by
  rw [sectionsOf, FileHeader.find?_lowerLatin, Option.elim_map, Sections.find_lowerLatin, sectionsOf]
  rfl

@[simp] theorem callRegions_lowerLatin (code : List Char) :
    callRegions (lowerLatin code) = callRegions code := by
  change (sectionsOf (lowerLatin code)).implementationSpan (width (lowerLatin code)) ::
    (sectionsOf (lowerLatin code)).tail.toList = _
  rw [sectionsOf_lowerLatin, width_lowerLatin]
  rfl

def typesOf : List Span := (findClasses source s).map (·.span) ++ findOtherTypes source.code

@[simp] theorem typesOf_lowerCase : typesOf s source.lowerCase = typesOf s source := by
  simp [typesOf, Function.comp_def]

def declaredOf : List Routine :=
  match (sectionsOf source.code).interface with
  | some span =>
    interfaceRoutines source (typesOf s source) (Cursor.within source.code span.start span.stop)
  | none => []

theorem declaredOf_lowerCase :
    declaredOf s source.lowerCase = (declaredOf s source).map Routine.lowerCase := by
  simp only [declaredOf, Masked.code_lowerCase, sectionsOf_lowerLatin, typesOf_lowerCase,
    Cursor.within_lowerLatin, interfaceRoutines_lowerCase]
  cases (sectionsOf source.code).interface <;> rfl

def implementedOf : List RoutineNode :=
  let span := (sectionsOf source.code).implementationSpan (width source.code)
  implementationRoutines s.maxNestingDepth (typesOf s source)
    (Cursor.within source.code span.start span.stop)

theorem implementedOf_lowerCase :
    implementedOf s source.lowerCase = (implementedOf s source).map RoutineNode.lowerCase := by
  simp only [implementedOf, Masked.code_lowerCase, sectionsOf_lowerLatin, typesOf_lowerCase,
    Cursor.within_lowerLatin, implementationRoutines_lowerCase, width_lowerLatin]

/-- The classes and the interface of a masked source, before the implementation is put in. -/
def startOf : Assembly where
  classes := findClasses source s
  free := (declaredOf s source).foldl RoutineTable.push {}
  diagnostics := classDiagnostics path (findClasses source s)

theorem startOf_lowerCase : startOf s path source.lowerCase = (startOf s path source).lowerCase := by
  have hfree : (declaredOf s source.lowerCase).foldl RoutineTable.push {} =
      ((declaredOf s source).foldl RoutineTable.push {}).lowerCase := by
    have hempty : RoutineTable.lowerCase {} = {} := by simp [RoutineTable.lowerCase]
    rw [declaredOf_lowerCase, List.foldl_map, ← hempty,
      List.foldl_hom RoutineTable.lowerCase fun t r => t.push_lowerCase r, hempty]
  rw [startOf, hfree, findClasses_lowerCase, classDiagnostics_lowerCase]
  rfl

/-- The classes and routines of a masked source, with the implementation put in. -/
def assemblyOf : Assembly :=
  (implementedOf s source).foldl (Assembly.addTopLevel path source s) (startOf s path source)

theorem assemblyOf_lowerCase :
    assemblyOf s path source.lowerCase = (assemblyOf s path source).lowerCase := by
  rw [assemblyOf, implementedOf_lowerCase, List.foldl_map, startOf_lowerCase]
  exact List.foldl_hom Assembly.lowerCase fun a r => a.addTopLevel_lowerCase path source s r

def accessesOf : List DataOp :=
  (findClasses source s).flatMap (·.components) ++
    findCalls source (callRegions source.code) components (assemblyOf s path source).owners s ++
      findSql source (assemblyOf s path source).owners

theorem accessesOf_lowerCase :
    accessesOf s path source.lowerCase components =
      (accessesOf s path source components).map DataOp.lowerCase := by
  simp only [accessesOf, assemblyOf_lowerCase, Assembly.lowerCase, findClasses_lowerCase,
    Masked.code_lowerCase, callRegions_lowerLatin, findCalls_lowerCase, findSql_lowerCase,
    List.map_append, List.map_flatMap, List.flatMap_map]
  rfl

def dataOpsOf : List DataOp := sortBy (compareOn (·.line)) (accessesOf s path source components)

theorem dataOpsOf_lowerCase :
    dataOpsOf s path source.lowerCase components =
      (dataOpsOf s path source components).map DataOp.lowerCase := by
  rw [dataOpsOf, accessesOf_lowerCase, dataOpsOf, sortBy, sortBy]
  symm
  exact List.map_mergeSort fun _ _ _ _ => rfl

/-- The unit that is read from a masked source with the names of its components. -/
def unitOf : SourceUnit :=
  let header := FileHeader.find? source.code
  let done := assemblyOf s path source
  let ops := dataOpsOf s path source components
  let facts := (done.classes.map (·.facts)).map (withStatements ops)
  { name := (header.map (·.name)).getD (Path.unitName path)
    path
    language := .pascal
    kind := unitKind s path facts (header.map (·.kind))
    classes := facts
    routines := done.free.routines.toList
    dependencies := dependencies source.code (sectionsOf source.code)
    dataOps := ops
    metrics := source.metrics done.maxDepth
    diagnostics := done.diagnostics }

theorem readUnit_eq_unitOf (text : String) :
    readUnit s path text =
      unitOf s path (.of .pascal text.toList)
        (componentNames (Masked.of .pascal text.toList).code s) :=
  rfl

theorem withStatements_lowerCase (ops : List DataOp) (c : ClassDecl) :
    withStatements (ops.map DataOp.lowerCase) c.lowerCase = (withStatements ops c).lowerCase := by
  have hname : c.lowerCase.name.toLower = c.name.toLower := toLower_toLower_string c.name
  simp only [withStatements, List.any_map]
  rw [hname]
  simp [DataOp.lowerCase, ClassDecl.lowerCase, Function.comp_def, Option.any_map]

theorem unitKind_lowerCase (classes : List ClassDecl) (kind : Option FileKind) :
    unitKind s path (classes.map ClassDecl.lowerCase) kind = unitKind s path classes kind := by
  simp only [unitKind, List.any_map]
  rfl

/-- A source in lower case is read as the unit of the source in lower case, but for the name that the
unit takes from its path. -/
theorem lowerCase_unitOf :
    (unitOf s path source components).lowerCase =
      { unitOf s path source.lowerCase components with
        name := (unitOf s path source.lowerCase components).name.toLower } := by
  have hfacts : ((((assemblyOf s path source).classes.map ParsedClass.lowerCase).map (·.facts)).map
      (withStatements ((dataOpsOf s path source components).map DataOp.lowerCase))) =
        ((((assemblyOf s path source).classes.map (·.facts)).map
          (withStatements (dataOpsOf s path source components))).map ClassDecl.lowerCase) := by
    simp [Function.comp_def, withStatements_lowerCase]
  have hname :
      (((FileHeader.find? source.code).map (·.name.toLower)).getD (Path.unitName path)).toLower =
        (((FileHeader.find? source.code).map (·.name)).getD (Path.unitName path)).toLower := by
    cases FileHeader.find? source.code <;> simp
  simp only [unitOf, SourceUnit.lowerCase, assemblyOf_lowerCase, dataOpsOf_lowerCase,
    Masked.code_lowerCase, FileHeader.find?_lowerLatin, sectionsOf_lowerLatin,
    dependencies_lowerLatin, Masked.metrics_lowerCase, Assembly.lowerCase, hfacts,
    unitKind_lowerCase, Option.map_map]
  simp [FileHeader.lowerCase, RoutineTable.lowerCase, Function.comp_def, hname]

end Units

end MigrationAudit.Pascal
