import MigrationAudit.Pascal.Unit
import MigrationAudit.Proofs.Lists
import MigrationAudit.Proofs.Pascal.LowerRoutines
import MigrationAudit.Proofs.Pascal.LowerTypes

/-!
# Implementations in lower case

The routines declared in a text in lower case, and those implemented there, are those of the text,
put into lower case, and each implementation completes the same declaration.
-/

namespace MigrationAudit.Pascal

open Text Source

/-! ## Walks -/

section Walks

variable {source : Masked} {maxNesting : Nat} {skipped : List Span} {c : Cursor} {w : Word}

@[simp] theorem walkStep_lowerCase (skipped : List Span) (w : Word) :
    walkStep skipped w.lowerCase = walkStep skipped w := by
  simp only [walkStep, Word.start_lowerCase, Word.lower_lowerCase, Word.first_lowerCase,
    isRoutineStart_lowerCase]

theorem interfaceRoutines_of_none (hw : c.nextWord? = none) :
    interfaceRoutines source skipped c = [] := by
  rw [interfaceRoutines]
  split <;> simp_all

theorem interfaceRoutines_of_skipTo {n : Nat} (hw : c.nextWord? = some w)
    (hstep : walkStep skipped w = .skipTo n) :
    interfaceRoutines source skipped c = interfaceRoutines source skipped (w.behind.seek n) := by
  rw [interfaceRoutines]
  split <;> simp_all

theorem interfaceRoutines_of_other (hw : c.nextWord? = some w)
    (hstep : walkStep skipped w = .other) :
    interfaceRoutines source skipped c = interfaceRoutines source skipped w.behind := by
  rw [interfaceRoutines]
  split <;> simp_all

theorem interfaceRoutines_of_routine (hw : c.nextWord? = some w)
    (hstep : walkStep skipped w = .routine) :
    interfaceRoutines source skipped c =
      (Header.parse? (statementText w.first)).elim (interfaceRoutines source skipped w.behind)
        fun h =>
          interfaceRoutine source w.first h (readDirectives (pastStatement w.first)).1 ::
            interfaceRoutines source skipped (readDirectives (pastStatement w.first)).2 := by
  rw [interfaceRoutines]
  split
  next hnone => simp [hw] at hnone
  next w' hw' =>
    obtain rfl : w' = w := Option.some.inj (hw'.symm.trans hw)
    rw [hstep]
    simp only
    split
    next hnone => rw [hnone, Option.elim_none]
    next h hh => rw [hh, Option.elim_some]

theorem interfaceRoutines_lowerCase (source : Masked) (skipped : List Span) (c : Cursor) :
    interfaceRoutines source.lowerCase skipped c.lowerCase =
      (interfaceRoutines source skipped c).map Routine.lowerCase := by
  fun_induction interfaceRoutines source skipped c with
  | case1 c hw =>
    rw [interfaceRoutines_of_none (Cursor.nextWord?_lowerCase_of_none hw)]
    rfl
  | case2 c w hw n hstep ih =>
    rw [interfaceRoutines_of_skipTo (Cursor.nextWord?_lowerCase_of_some hw)
      ((walkStep_lowerCase ..).trans hstep), Word.behind_lowerCase, Cursor.seek_lowerCase, ih]
  | case3 c w hw hstep ih =>
    rw [interfaceRoutines_of_other (Cursor.nextWord?_lowerCase_of_some hw)
      ((walkStep_lowerCase ..).trans hstep)]
    exact ih
  | case4 c w hw hstep hnone ih =>
    rw [interfaceRoutines_of_routine (Cursor.nextWord?_lowerCase_of_some hw)
      ((walkStep_lowerCase ..).trans hstep), Word.first_lowerCase, statementText_lowerCase,
      Header.parse?_lowerLatin, hnone]
    exact ih
  | case5 c w hw hstep h hh ih =>
    rw [interfaceRoutines_of_routine (Cursor.nextWord?_lowerCase_of_some hw)
      ((walkStep_lowerCase ..).trans hstep), Word.first_lowerCase, statementText_lowerCase,
      Header.parse?_lowerLatin, hh, Option.map_some, Option.elim_some, pastStatement_lowerCase,
      readDirectives_lowerCase, List.map_cons, ← ih]
    rfl

theorem lastStop_lowerCase (found : List RoutineNode) :
    lastStop (found.map RoutineNode.lowerCase) = lastStop found := by
  simp [lastStop, Function.comp_def, RoutineNode.lowerCase_eq]

theorem implementationRoutines_of_none (hw : c.nextWord? = none) :
    implementationRoutines maxNesting skipped c = [] := by
  rw [implementationRoutines]
  split <;> simp_all

theorem implementationRoutines_of_skipTo {n : Nat} (hw : c.nextWord? = some w)
    (hstep : walkStep skipped w = .skipTo n) :
    implementationRoutines maxNesting skipped c =
      implementationRoutines maxNesting skipped (w.behind.seek n) := by
  rw [implementationRoutines]
  split <;> simp_all

theorem implementationRoutines_of_other (hw : c.nextWord? = some w)
    (hstep : walkStep skipped w = .other) :
    implementationRoutines maxNesting skipped c =
      implementationRoutines maxNesting skipped w.behind := by
  rw [implementationRoutines]
  split <;> simp_all

theorem implementationRoutines_of_routine (hw : c.nextWord? = some w)
    (hstep : walkStep skipped w = .routine) :
    implementationRoutines maxNesting skipped c =
      readRoutines maxNesting ((classPrefix? w.first).getD w.first) ++
        implementationRoutines maxNesting skipped (w.behind.seek
          (lastStop (readRoutines maxNesting ((classPrefix? w.first).getD w.first)))) := by
  rw [implementationRoutines]
  split <;> simp_all

theorem implementationRoutines_lowerCase (maxNesting : Nat) (skipped : List Span) (c : Cursor) :
    implementationRoutines maxNesting skipped c.lowerCase =
      (implementationRoutines maxNesting skipped c).map RoutineNode.lowerCase := by
  fun_induction implementationRoutines maxNesting skipped c with
  | case1 c hw =>
    rw [implementationRoutines_of_none (Cursor.nextWord?_lowerCase_of_none hw)]
    rfl
  | case2 c w hw n hstep ih =>
    rw [implementationRoutines_of_skipTo (Cursor.nextWord?_lowerCase_of_some hw)
      ((walkStep_lowerCase ..).trans hstep), Word.behind_lowerCase, Cursor.seek_lowerCase, ih]
  | case3 c w hw hstep ih =>
    rw [implementationRoutines_of_other (Cursor.nextWord?_lowerCase_of_some hw)
      ((walkStep_lowerCase ..).trans hstep)]
    exact ih
  | case4 c w hw hstep found ih =>
    have hfound : readRoutines maxNesting ((classPrefix? w.first.lowerCase).getD w.first.lowerCase) =
        found.map RoutineNode.lowerCase := by
      rw [classPrefix?_lowerCase, Option.getD_map, readRoutines_lowerCase]
    rw [implementationRoutines_of_routine (Cursor.nextWord?_lowerCase_of_some hw)
      ((walkStep_lowerCase ..).trans hstep), Word.first_lowerCase, hfound, lastStop_lowerCase,
      Word.behind_lowerCase, Cursor.seek_lowerCase, ih, List.map_append]

end Walks

/-! ## Declarations and implementations -/

section Tables

variable (name : String) (declared : Array Routine) (candidates : List Nat) (r d : Routine)

@[simp] theorem awaits_lowerCase : awaits name.toLower r.lowerCase = awaits name r := by
  simp [awaits]

theorem findDeclaration?_lowerCase :
    findDeclaration? (declared.map Routine.lowerCase) candidates r.lowerCase =
      findDeclaration? declared candidates r := by
  have hparams : r.lowerCase.params.isEmpty = r.params.isEmpty := List.isEmpty_map
  have hwaiting : ∀ i : Nat, (declared.map Routine.lowerCase)[i]?.any (awaits r.lowerCase.name) =
      declared[i]?.any (awaits r.name) := by
    intro i
    rw [Array.getElem?_map]
    cases declared[i]? <;> simp
  have harity : ∀ i : Nat,
      ((declared.map Routine.lowerCase)[i]?.any fun e => e.arity == r.lowerCase.arity) =
        declared[i]?.any fun e => e.arity == r.arity := by
    intro i
    rw [Array.getElem?_map]
    cases declared[i]? <;> simp
  simp only [findDeclaration?, hwaiting, harity, hparams]

@[simp] theorem absorb_lowerCase : absorb d.lowerCase r.lowerCase = (absorb d r).lowerCase := rfl

theorem mergeMethod_lowerCase (methods : List Routine) :
    mergeMethod (methods.map Routine.lowerCase) r.lowerCase =
      (mergeMethod methods r).map Routine.lowerCase := by
  have hfind := findDeclaration?_lowerCase methods.toArray (List.range methods.length) r
  simp only [List.map_toArray] at hfind
  simp only [mergeMethod, List.length_map, hfind]
  split
  · exact map_modify_of_comm (fun d => absorb_lowerCase r d) methods _
  · simp

end Tables

namespace RoutineTable

def lowerCase (t : RoutineTable) : RoutineTable :=
  { t with routines := t.routines.map Routine.lowerCase }

variable (t : RoutineTable) (r : Routine)

@[simp] theorem positionsOf_lowerCase (name : String) :
    t.lowerCase.positionsOf name.toLower = t.positionsOf name := by
  simp [positionsOf, lowerCase]

@[simp] theorem push_lowerCase : t.lowerCase.push r.lowerCase = (t.push r).lowerCase := by
  simp [push, lowerCase, positionsOf]

theorem merge_lowerCase (v : Option Visibility) :
    t.lowerCase.merge r.lowerCase v = (t.merge r v).lowerCase := by
  have hfind : findDeclaration? t.lowerCase.routines
      (t.lowerCase.positionsOf r.lowerCase.name) r.lowerCase =
        findDeclaration? t.routines (t.positionsOf r.name) r := by
    rw [Routine.name_lowerCase, positionsOf_lowerCase]
    exact findDeclaration?_lowerCase t.routines _ r
  simp only [merge, hfind]
  split
  · simp only [lowerCase, mk.injEq, and_true, ← Array.toList_inj, Array.toList_modify,
      Array.toList_map]
    exact map_modify_of_comm (fun d => absorb_lowerCase r d) _ _
  · exact push_lowerCase t { r with visibility := r.visibility.or v }

end RoutineTable

/-! ## Assemblies -/

namespace Assembly

def lowerCase (a : Assembly) : Assembly :=
  { a with
    classes := a.classes.map ParsedClass.lowerCase
    free := a.free.lowerCase
    owners := a.owners.map OwnerSpan.lowerCase
    diagnostics := a.diagnostics.map Diagnostic.lowerCase }

variable (a : Assembly) (path : String) (source : Masked) (s : ExtractionSettings) (r : RoutineNode)
  (facts : Routine)

theorem record_lowerCase (name : String) :
    a.lowerCase.record path s r.lowerCase facts.lowerCase name.toLower =
      (a.record path s r facts name).lowerCase := by
  simp only [record, RoutineNode.diagnostics_lowerCase, RoutineNode.bodyDepth_lowerCase]
  simp [lowerCase, RoutineNode.lowerCase_eq, OwnerSpan.lowerCase]

theorem addNested_lowerCase :
    addNested path source.lowerCase s a.lowerCase r.lowerCase =
      (addNested path source s a r).lowerCase := by
  simp only [addNested, RoutineNode.toRoutine_lowerCase, Routine.name_lowerCase, record_lowerCase]
  simp only [lowerCase, ← RoutineTable.push_lowerCase]
  rfl

theorem classOf?_lowerCase : a.lowerCase.classOf? facts.lowerCase = a.classOf? facts := by
  simp only [classOf?, Routine.owner_lowerCase]
  cases facts.owner with
  | none => rfl
  | some owner =>
    simp [lowerCase, List.findIdx?_map, Function.comp_def, ClassDecl.lowerCase]

theorem attach_lowerCase : a.lowerCase.attach facts.lowerCase = (a.attach facts).lowerCase := by
  simp only [attach, classOf?_lowerCase, Routine.owner_lowerCase, Option.isSome_map]
  split
  · simp only [lowerCase, mk.injEq, and_true]
    refine map_modify_of_comm (fun c => ?_) _ _
    have hmerge := mergeMethod_lowerCase facts c.facts.methods
    simp only [ParsedClass.lowerCase, ClassDecl.lowerCase, hmerge]
  · split
    · simp [lowerCase]
    · simp [lowerCase, RoutineTable.merge_lowerCase]

theorem addTopLevel_lowerCase :
    addTopLevel path source.lowerCase s a.lowerCase r.lowerCase =
      (addTopLevel path source s a r).lowerCase := by
  simp only [addTopLevel, RoutineNode.toRoutine_lowerCase, Routine.qualifiedName_lowerCase,
    record_lowerCase, RoutineNode.descendants_lowerCase, List.foldl_map]
  rw [List.foldl_hom lowerCase fun a r => addNested_lowerCase a path source s r, attach_lowerCase]

end Assembly

end MigrationAudit.Pascal
