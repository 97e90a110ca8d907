import MigrationAudit.Pascal.Unit
import MigrationAudit.Proofs.Pascal.Placement

/-!
# What is declared before the implementation is read

The routines of the interface and the methods of classes are only declared: they have no body, and
their directives are those of the language.
-/

namespace MigrationAudit.Pascal

open Text Source

/-- A routine without a body, and without directives other than those of the language. -/
structure IsDeclared (r : Routine) : Prop where
  hasBody_eq : r.hasBody = false
  complexity_eq : r.complexity = 1
  directives_subset : ∀ d ∈ r.directives, d ∈ directives

theorem readDirectives_subset (c : Cursor) : ∀ d ∈ (readDirectives c).1, d ∈ directives := by
  fun_induction readDirectives c with
  | case1 => simp
  | case2 c w h hdirective more rest heq ih =>
    rw [heq] at ih
    exact List.forall_mem_cons.mpr ⟨by simpa using hdirective, ih⟩
  | case3 => simp

/-- The routine and all that is nested in it have no directives other than those of the language. -/
inductive HasKnownDirectives : RoutineNode → Prop
  | intro {r : RoutineNode} (own : ∀ d ∈ r.directives, d ∈ directives)
      (nested : ∀ n ∈ r.nested, HasKnownDirectives n) : HasKnownDirectives r

namespace HasKnownDirectives

variable {r child : RoutineNode} {forest : List RoutineNode}

theorem push (h : HasKnownDirectives r) (hchild : HasKnownDirectives child) :
    HasKnownDirectives (r.push child) := by
  obtain ⟨hown, hnested⟩ := h
  exact ⟨hown, List.forall_mem_append.mpr ⟨hnested, List.forall_mem_singleton.mpr hchild⟩⟩

theorem cap (h : HasKnownDirectives r) : HasKnownDirectives { r with nestingCapped := true } := by
  obtain ⟨hown, hnested⟩ := h
  exact ⟨hown, hnested⟩

theorem readBody (h : HasKnownDirectives r) (c : Cursor) : HasKnownDirectives (readBody r c).1 := by
  obtain ⟨hown, hnested⟩ := h
  exact ⟨hown, hnested⟩

theorem unfinished (h : ∀ r ∈ forest, HasKnownDirectives r) :
    ∀ r ∈ unfinished forest, HasKnownDirectives r := by
  intro r hr
  obtain ⟨m, hm, hr⟩ := List.mem_flatMap.mp hr
  obtain ⟨hown, hnested⟩ := h m (List.mem_reverse.mp hm)
  rcases List.mem_cons.mp hr with rfl | hr
  · exact ⟨hown, List.forall_mem_nil _⟩
  · exact hnested r hr

theorem read? {c : Cursor} {d : Declaration} (h : Declaration.read? c = some d) :
    HasKnownDirectives d.node := by
  unfold Declaration.read? at h
  split at h
  · simp at h
  · obtain rfl := Option.some.inj h
    exact ⟨readDirectives_subset _, List.forall_mem_nil _⟩

theorem readLocals (limit : Nat) (c : Cursor) {top : RoutineNode} {parents : List RoutineNode}
    (h : ∀ r ∈ top :: parents, HasKnownDirectives r) :
    ∀ r ∈ readLocals limit c top parents, HasKnownDirectives r := by
  fun_induction Pascal.readLocals limit c top parents with
  | case1 => exact unfinished h
  | case2 c top w =>
    exact List.forall_mem_singleton.mpr ((h top List.mem_cons_self).readBody _)
  | case3 c top w hw hstep parent parents ih =>
    rw [List.forall_mem_cons, List.forall_mem_cons] at h
    exact ih (List.forall_mem_cons.mpr ⟨h.2.1.push (h.1.readBody _), h.2.2⟩)
  | case4 => exact unfinished h
  | case5 _ _ _ _ _ _ _ ih | case9 _ _ _ _ _ _ ih => exact ih h
  | case6 c top parents w hw hstep d hd hforward ih =>
    rw [List.forall_mem_cons] at h
    exact ih (List.forall_mem_cons.mpr ⟨h.1.push (read? hd), h.2⟩)
  | case7 c top parents w hw hstep d hd hforward hlimit ih =>
    rw [List.forall_mem_cons] at h
    exact ih (List.forall_mem_cons.mpr ⟨(h.1.push (read? hd)).cap, h.2⟩)
  | case8 c top parents w hw hstep d hd hforward hlimit ih =>
    exact ih (List.forall_mem_cons.mpr ⟨read? hd, h⟩)

theorem readRoutines (maxNesting : Nat) (c : Cursor) :
    ∀ r ∈ readRoutines maxNesting c, HasKnownDirectives r := by
  unfold Pascal.readRoutines
  split
  · exact List.forall_mem_nil _
  · next d hd =>
    split
    · exact List.forall_mem_singleton.mpr (read? hd)
    · exact readLocals _ _ (List.forall_mem_singleton.mpr (read? hd))

theorem implementationRoutines (maxNesting : Nat) (skipped : List Span) (c : Cursor) :
    ∀ r ∈ implementationRoutines maxNesting skipped c, HasKnownDirectives r := by
  fun_induction Pascal.implementationRoutines maxNesting skipped c with
  | case1 => exact List.forall_mem_nil _
  | case2 _ _ _ _ _ ih | case3 _ _ _ _ ih => exact ih
  | case4 c w hw hstep found ih => exact List.forall_mem_append.mpr ⟨readRoutines _ _, ih⟩

end HasKnownDirectives

/-! ## The interface -/

theorem isDeclared_interfaceRoutines (source : Masked) (skipped : List Span) (c : Cursor) :
    ∀ r ∈ interfaceRoutines source skipped c, IsDeclared r := by
  fun_induction interfaceRoutines source skipped c with
  | case1 => simp
  | case2 _ _ _ _ _ ih => exact ih
  | case3 _ _ _ _ ih => exact ih
  | case4 _ _ _ _ _ ih => exact ih
  | case5 c w hw hstep h hparse ih =>
    exact List.forall_mem_cons.mpr ⟨⟨rfl, rfl, readDirectives_subset _⟩, ih⟩

/-! ## Classes -/

namespace Members

variable {m : Members} (s : ExtractionSettings) (owner : String)

theorem isDeclared_addDirective (h : ∀ r ∈ m.methods, IsDeclared r) {directive : String}
    (hdirective : directive ∈ directives) :
    ∀ r ∈ (m.addDirective directive).methods, IsDeclared r := by
  unfold addDirective
  split
  · next last hlast =>
    have hmem := h last (List.mem_of_getLast? hlast)
    refine List.forall_mem_append.mpr ⟨fun r hr => h r (List.dropLast_subset _ hr), ?_⟩
    refine List.forall_mem_singleton.mpr ⟨hmem.hasBody_eq, hmem.complexity_eq, ?_⟩
    exact List.forall_mem_append.mpr ⟨hmem.directives_subset, by simpa using hdirective⟩
  · exact h

theorem methods_readFields (m : Members) (opens closes : Nat) (text : List Char) (line : Nat) :
    (m.readFields s owner opens closes text line).methods = m.methods := by
  unfold readFields
  split
  · rfl
  · split <;> rfl

theorem isDeclared_readDeclaration (h : ∀ r ∈ m.methods, IsDeclared r) (opens closes : Nat)
    (text : List Char) (line : Nat) :
    ∀ r ∈ (m.readDeclaration s owner opens closes text line).methods, IsDeclared r := by
  unfold readDeclaration
  simp only
  split
  · split
    · exact List.forall_mem_append.mpr
        ⟨h, List.forall_mem_singleton.mpr ⟨rfl, rfl, List.forall_mem_nil _⟩⟩
    · exact h
  split
  · next hdirective =>
    obtain ⟨directive, hfirst, hcontains⟩ := (Option.any_eq_true ..).mp hdirective
    rw [hfirst, Option.getD_some]
    exact isDeclared_addDirective h (by simpa using hcontains)
  split
  · split <;> exact h
  split
  · exact h
  · rw [methods_readFields]
    exact h

theorem isDeclared_note (source : Masked) (h : ∀ r ∈ m.methods, IsDeclared r)
    (declaration : Nat × List Char) :
    ∀ r ∈ (m.note source s owner declaration).methods, IsDeclared r := by
  unfold note
  simp only
  split
  · exact h
  split
  · exact h
  · refine isDeclared_readDeclaration s owner ?_ _ _ _ _
    exact h

theorem isDeclared_read (source : Masked) (body : Span) :
    ∀ r ∈ (Members.read source s owner body).methods, IsDeclared r := by
  unfold Members.read
  exact List.foldlRecOn (motive := fun m : Members => ∀ r ∈ m.methods, IsDeclared r) _ _
    (List.forall_mem_nil _) fun m h d _ => isDeclared_note s owner source h d

end Members

theorem isDeclared_read? {source : Masked} {s : ExtractionSettings} {i : Match (List Char)}
    {c : ParsedClass} (h : ParsedClass.read? source s i = some c) :
    ∀ r ∈ c.facts.methods, IsDeclared r := by
  unfold ParsedClass.read? at h
  split at h
  · simp at h
  · simp only at h
    split at h
    · simp at h
    split at h
    · obtain rfl := Option.some.inj h
      exact List.forall_mem_nil _
    · obtain rfl := Option.some.inj h
      exact Members.isDeclared_read s _ source _

theorem isDeclared_findClasses (source : Masked) (s : ExtractionSettings) :
    ∀ c ∈ findClasses source s, ∀ r ∈ c.facts.methods, IsDeclared r := by
  unfold findClasses
  refine List.foldlRecOn
    (motive := fun found : List ParsedClass => ∀ c ∈ found, ∀ r ∈ c.facts.methods, IsDeclared r) _ _
    (List.forall_mem_nil _) fun found h i _ => ?_
  split
  · exact h
  · refine List.forall_mem_append.mpr ⟨h, fun c hc => ?_⟩
    exact isDeclared_read? (Option.mem_toList.mp hc)

/-! ## The start -/

/-- The routines of the implementation of a unit. -/
def unitForest (s : ExtractionSettings) (text : String) : List RoutineNode :=
  let source := Masked.of .pascal text.toList
  let code := source.code
  let header := FileHeader.find? code
  let sections := Sections.find code (header.elim 0 (·.stop))
  let skipped := (findClasses source s).map (·.span) ++ findOtherTypes code
  let implementation := sections.implementationSpan (width code)
  implementationRoutines s.maxNestingDepth skipped
    (Cursor.within code implementation.start implementation.stop)

/-- The classes and the interface of a unit, before the implementation is put in. -/
def unitStart (s : ExtractionSettings) (path text : String) : Assembly :=
  let source := Masked.of .pascal text.toList
  let code := source.code
  let header := FileHeader.find? code
  let sections := Sections.find code (header.elim 0 (·.stop))
  let classes := findClasses source s
  let skipped := classes.map (·.span) ++ findOtherTypes code
  let declared :=
    match sections.interface with
    | some span => interfaceRoutines source skipped (Cursor.within code span.start span.stop)
    | none => []
  { classes
    free := declared.foldl RoutineTable.push {}
    diagnostics := classDiagnostics path classes }

/-- The unit after the implementation is put in, routine by routine. -/
def unitDone (s : ExtractionSettings) (path text : String) : Assembly :=
  (unitForest s text).foldl
    (Assembly.addTopLevel path (Masked.of .pascal text.toList) s) (unitStart s path text)

theorem allRoutines_readUnit (s : ExtractionSettings) (path text : String) :
    (readUnit s path text).allRoutines = (unitDone s path text).routines := by
  have hclasses : (readUnit s path text).classes =
      ((unitDone s path text).classes.map (·.facts)).map
        (withStatements (readUnit s path text).dataOps) := rfl
  rw [SourceUnit.allRoutines, hclasses, List.map_map, List.flatMap_map]
  rfl

theorem routines_foldl_push (t : RoutineTable) (rs : List Routine) :
    (rs.foldl RoutineTable.push t).routines.toList = t.routines.toList ++ rs := by
  induction rs generalizing t with
  | nil => simp
  | cons r rs ih => simp [ih]

theorem isDeclared_unitStart (s : ExtractionSettings) (path text : String) :
    ∀ r ∈ (unitStart s path text).routines, IsDeclared r := by
  refine List.forall_mem_append.mpr ⟨?_, ?_⟩
  · rw [unitStart]
    simp only [routines_foldl_push, List.nil_append]
    split
    · exact isDeclared_interfaceRoutines _ _ _
    · exact List.forall_mem_nil _
  · rintro r hr
    obtain ⟨c, hc, hmethod⟩ := List.mem_flatMap.mp hr
    exact isDeclared_findClasses _ s c hc r hmethod

end MigrationAudit.Pascal
