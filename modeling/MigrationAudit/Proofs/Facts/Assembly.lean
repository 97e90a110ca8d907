import MigrationAudit.Coverage.Report
import MigrationAudit.Plan.Basic
import MigrationAudit.Proofs.Lists
import MigrationAudit.Workspace.Analysis
import Mathlib.Data.List.Nodup

/-!
# The order of units and diagnostics

Units are put in order by path and name before any of them is renamed, and diagnostics are put in
order by all that they say. So the order in which they come is lost at once, and everything that is
made of a project is the same for any order of its files.
-/

namespace MigrationAudit

theorem DiagnosticKind.rank_injective : Function.Injective rank := by
  intro k k'
  cases k <;> cases k' <;> decide

namespace Diagnostic

instance : Std.TransCmp Diagnostic.compare := by
  unfold Diagnostic.compare
  infer_instance

theorem eq_of_compare_eq {d d' : Diagnostic} (h : d.compare d' = .eq) : d = d' := by
  simp only [Diagnostic.compare, compareLex_eq_eq, compareOn, Std.LawfulEqCmp.compare_eq_iff_eq]
    at h
  obtain ⟨hpath, hline, hkind, hreason⟩ := h
  have hline : d.line = d'.line := by
    cases hd : d.line <;> cases hd' : d'.line <;> simp_all
  cases d
  cases d'
  simp_all [DiagnosticKind.rank_injective.eq_iff]

end Diagnostic

namespace SourceUnit

instance : Std.TransCmp SourceUnit.compareByPath := by
  unfold SourceUnit.compareByPath
  infer_instance

theorem compareByPath_eq_eq {u u' : SourceUnit} :
    u.compareByPath u' = .eq ↔ (u.path, u.name) = (u'.path, u'.name) := by
  simp [compareByPath, compareLex_eq_eq, compareOn, Std.LawfulEqCmp.compare_eq_iff_eq]

/-- Units that no two share path and name are put in the same order however they come. -/
theorem sortBy_compareByPath_of_perm {units units' : List SourceUnit} (h : units.Perm units')
    (hdistinct : (units.map fun u => (u.path, u.name)).Nodup) :
    sortBy compareByPath units = sortBy compareByPath units' := by
  apply sortBy_eq_of_perm h
  intro u hu u' hu' heq
  exact List.inj_on_of_nodup_map hdistinct hu hu' (compareByPath_eq_eq.mp heq)

end SourceUnit

theorem SourceUnit.map_nameApart {β : Type} {f : SourceUnit → β}
    (hf : ∀ u name, f { u with name } = f u) (taken : List String) (units : List SourceUnit) :
    (nameApart taken units).1.map f = units.map f := by
  induction units generalizing taken with
  | nil => rfl
  | cons u units ih =>
    unfold nameApart
    split <;> simp only [List.map_cons, ih, hf]

def Project.ofUnits (units : List SourceUnit) : Project :=
  { schemaVersion := MigrationAudit.schemaVersion
    units
    summary := .ofUnits units
    diagnostics := [] }

namespace Project

theorem fault?_of_perm {p q : Project} (h : p.units.Perm q.units)
    (hversion : p.schemaVersion = q.schemaVersion) : p.fault? = q.fault? := by
  unfold fault?
  rw [hversion, h.isEmpty_eq]

theorem map_path_assemble (units : List SourceUnit) (notes : List Diagnostic) :
    ((assemble units notes).units.map (·.path)).Perm (units.map (·.path)) := by
  have hinherit (t : RoleTable) (us : List SourceUnit) :
      (us.map (·.inherit t)).map (·.path) = us.map (·.path) := by
    rw [List.map_map]
    rfl
  refine ((sortBy_perm _ _).map _).trans ?_
  rw [hinherit, SourceUnit.map_nameApart fun _ _ => rfl]
  exact (sortBy_perm _ _).map _

theorem assemble_eq_of_perm {units units' : List SourceUnit} {notes notes' : List Diagnostic}
    (hunits : units.Perm units') (hdistinct : (units.map fun u => (u.path, u.name)).Nodup)
    (hnotes : notes.Perm notes') : assemble units notes = assemble units' notes' := by
  unfold assemble
  rw [SourceUnit.sortBy_compareByPath_of_perm hunits hdistinct]
  have hsorted : ∀ rest : List Diagnostic,
      sortBy Diagnostic.compare (notes ++ rest) = sortBy Diagnostic.compare (notes' ++ rest) :=
    fun rest => sortBy_eq_of_perm (hnotes.append_right rest)
      fun _ _ _ _ heq => Diagnostic.eq_of_compare_eq heq
  simp only [List.append_assoc, hsorted]

end Project

theorem nodup_map_readUnit (s : ExtractionSettings) {files : List (String × String)}
    (hdistinct : (files.map (·.1)).Nodup) :
    ((files.map fun (path, text) => readUnit s path text).map
      fun u => (u.path, u.name)).Nodup := by
  apply List.Nodup.of_map Prod.fst
  have hpaths : (files.map fun (path, text) => (readUnit s path text).path) = files.map (·.1) :=
    List.map_congr_left fun f _ => path_readUnit s f.1 f.2
  simpa only [List.map_map, Function.comp_def, hpaths] using hdistinct

theorem readProject_eq_of_perm (s : ExtractionSettings) {files files' : List (String × String)}
    (hfiles : files.Perm files') (hdistinct : (files.map (·.1)).Nodup) :
    readProject s files = readProject s files' :=
  Project.assemble_eq_of_perm (hfiles.map _) (nodup_map_readUnit s hdistinct) (List.Perm.refl [])

/-- No order of units, diagnostics or files can be told from a project, its plan or a comparison. -/
theorem projects_ignore_order (α : Type) [Scalar α] :
    (∀ {units units' : List SourceUnit} {notes notes' : List Diagnostic},
      (units.map fun u => (u.path, u.name)).Nodup → units.Perm units' → notes.Perm notes' →
        Project.assemble units notes = Project.assemble units' notes') ∧
    (∀ (s : ExtractionSettings) (p : PlanningSettings α) {files files' : List (String × String)},
      (files.map (·.1)).Nodup → files.Perm files' →
        readProject s files = readProject s files' ∧
          Plan.derive (readProject s files) p = Plan.derive (readProject s files') p) ∧
    ∀ (s : ExtractionSettings) (c : ComparisonSettings α)
      {source source' target target' : List (String × String)},
      (source.map (·.1)).Nodup → source.Perm source' →
        (target.map (·.1)).Nodup → target.Perm target' →
          CoverageReport.compare (readProject s source) (readProject s target) c =
            CoverageReport.compare (readProject s source') (readProject s target') c := by
  refine ⟨?_, ?_, ?_⟩
  · intro units units' notes notes' hdistinct hunits hnotes
    exact Project.assemble_eq_of_perm hunits hdistinct hnotes
  · intro s p files files' hdistinct hfiles
    have hproject := readProject_eq_of_perm s hfiles hdistinct
    exact ⟨hproject, by rw [hproject]⟩
  · intro s c source source' target target' hsource hsources htarget htargets
    rw [readProject_eq_of_perm s hsources hsource, readProject_eq_of_perm s htargets htarget]

/-- Two units of one name, of which the order of their paths decides which one is renamed. -/
theorem projects_ignore_order_of_customers :
    let crm : SourceUnit :=
      { name := "uCustomer", path := "crm/uCustomer.pas", language := .pascal }
    let shop : SourceUnit :=
      { name := "UCUSTOMER", path := "shop/uCustomer.pas", language := .pascal }
    let unread : Diagnostic := { path := "a.pas", kind := .inputError, reason := "unreadable" }
    let partly : Diagnostic := .malformed "a.pas" "unterminated" 7
    let files := [("crm/uCustomer.pas", "unit uCustomer;"), ("Customer.java", "class Customer {}")]
    Project.assemble [crm, shop] [unread, partly] = Project.assemble [shop, crm] [partly, unread] ∧
      readProject {} files = readProject {} files.reverse ∧
        CoverageReport.compare (readProject {} files) (readProject {} files)
            (.standard : ComparisonSettings Rat) =
          CoverageReport.compare (readProject {} files.reverse) (readProject {} files)
            .standard := by
  intro crm shop unread partly files
  have hfiles : (files.map (·.1)).Nodup := by decide
  have hreverse : files.Perm files.reverse := (List.reverse_perm files).symm
  refine ⟨?_, ?_, ?_⟩
  · exact (projects_ignore_order Rat).1 (by decide) (List.Perm.swap _ _ _)
      (List.Perm.swap _ _ _)
  · exact ((projects_ignore_order Rat).2.1 {} .standard hfiles hreverse).1
  · exact (projects_ignore_order Rat).2.2 {} .standard hfiles hreverse hfiles (List.Perm.refl _)

end MigrationAudit
