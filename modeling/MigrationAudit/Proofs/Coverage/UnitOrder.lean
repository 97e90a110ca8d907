import MigrationAudit.Proofs.Coverage.Correspondence
import MigrationAudit.Proofs.Sorted

/-!
# The order of units in a comparison

Entities are put in order by name and unit. Those that agree in both are from one unit, so they stay
in the order in which that unit declares them, wherever the unit stands among the others. Counts and
questions about all units do not see the order at all.
-/

namespace MigrationAudit

namespace Entity

theorem unit_eq_of_compare_eq {e e' : Entity} (h : e.compare e' = .eq) : e.unit = e'.unit := by
  simp only [Entity.compare, compareLex_eq_eq, compareOn, Std.LawfulEqCmp.compare_eq_iff_eq] at h
  exact h.2

/-- Entities that carry the name of their unit are sorted alike however the units come. -/
theorem sortBy_flatMap_of_perm {f : SourceUnit → List Entity} {us vs : List SourceUnit}
    (hf : ∀ u, ∀ e ∈ f u, e.unit = u.name) (h : us.Perm vs) (hnames : (us.map (·.name)).Nodup) :
    sortBy Entity.compare (us.flatMap f) = sortBy Entity.compare (vs.flatMap f) := by
  have hapart : us.Pairwise fun u v => ∀ x ∈ f u, ∀ y ∈ f v, x.compare y ≠ .eq := by
    apply (List.pairwise_map.mp hnames).imp
    intro u v hne x hx y hy heq
    apply hne
    rw [← hf u x hx, ← hf v y hy]
    exact unit_eq_of_compare_eq heq
  have hsorted := sortBy_flatMap_append_of_perm h hapart []
  rwa [List.append_nil, List.append_nil] at hsorted

end Entity

namespace ComparisonSettings

variable {α : Type} (s : ComparisonSettings α)

theorem routineEntities_eq_flatMap (p : Project) :
    s.routineEntities p = p.units.flatMap fun u => u.allRoutines.map (s.routineEntity u.name) := by
  simp only [routineEntities, Project.allRoutines, List.map_flatMap, List.map_map]
  rfl

theorem classEntities_eq_flatMap (p : Project) (wanted : ClassDecl → Bool) :
    s.classEntities p wanted =
      p.units.flatMap fun u => (u.classes.filter wanted).map (s.classEntity u.name) := by
  simp only [classEntities, Project.allClasses, List.filter_flatMap, List.map_flatMap,
    List.filter_map, List.map_map]
  rfl

section Perm

variable {p q : Project} (h : p.units.Perm q.units) (hnames : (p.units.map (·.name)).Nodup)
include h hnames

theorem sortBy_routineEntities_of_perm :
    sortBy Entity.compare (s.routineEntities p) = sortBy Entity.compare (s.routineEntities q) := by
  rw [routineEntities_eq_flatMap, routineEntities_eq_flatMap]
  apply Entity.sortBy_flatMap_of_perm _ h hnames
  intro u e he
  obtain ⟨r, _, rfl⟩ := List.mem_map.mp he
  rfl

theorem sortBy_classEntities_of_perm (wanted : ClassDecl → Bool) :
    sortBy Entity.compare (s.classEntities p wanted) =
      sortBy Entity.compare (s.classEntities q wanted) := by
  rw [classEntities_eq_flatMap, classEntities_eq_flatMap]
  apply Entity.sortBy_flatMap_of_perm _ h hnames
  intro u e he
  obtain ⟨c, _, rfl⟩ := List.mem_map.mp he
  rfl

theorem sourceEntities_of_perm (category : Category) :
    s.sourceEntities p category = s.sourceEntities q category := by
  cases category
  · exact s.sortBy_routineEntities_of_perm h hnames
  all_goals exact s.sortBy_classEntities_of_perm h hnames _

theorem targetEntities_of_perm (category : Category) :
    s.targetEntities p category = s.targetEntities q category := by
  cases category
  · exact s.sortBy_routineEntities_of_perm h hnames
  all_goals exact s.sortBy_classEntities_of_perm h hnames _

end Perm

end ComparisonSettings

section Perm

variable {p q : Project} (h : p.units.Perm q.units)
include h

theorem Project.any_units_of_perm (f : SourceUnit → Bool) : p.units.any f = q.units.any f := by
  rw [Bool.eq_iff_iff, List.any_eq_true, List.any_eq_true]
  exact exists_congr fun u => and_congr_left fun _ => h.mem_iff

theorem TargetSummary.ofProject_of_perm : TargetSummary.ofProject p = .ofProject q := by
  have hclasses : (p.allClasses.map (·.2)).Perm (q.allClasses.map (·.2)) :=
    (h.flatMap_right _).map _
  have hroutines : (p.allRoutines.map (·.2)).Perm (q.allRoutines.map (·.2)) :=
    (h.flatMap_right _).map _
  simp only [TargetSummary.ofProject, hclasses.length_eq, hroutines.length_eq, hclasses.countP_eq,
    hroutines.countP_eq]

end Perm

namespace CoverageReport

/-- A comparison depends on what each unit of either project declares, and in which order, but not
on the order of the units. -/
theorem compare_reordered {α : Type} [Scalar α] (s : ComparisonSettings α) {source target : Project}
    {us vs : List SourceUnit} (hsource : (source.units.map (·.name)).Nodup)
    (htarget : (target.units.map (·.name)).Nodup) (hus : us.Perm source.units)
    (hvs : vs.Perm target.units) :
    compare { source with units := us } { target with units := vs } s =
      compare source target s := by
  have hsourceUnits : ({ source with units := us } : Project).units.Perm source.units := hus
  have htargetUnits : ({ target with units := vs } : Project).units.Perm target.units := hvs
  have haudits : CategoryAudit.of? s { source with units := us } { target with units := vs } =
      CategoryAudit.of? s source target := by
    funext category
    unfold CategoryAudit.of? CategoryAudit.of
    rw [s.sourceEntities_of_perm hsourceUnits ((hus.map _).nodup_iff.mpr hsource),
      s.targetEntities_of_perm htargetUnits ((hvs.map _).nodup_iff.mpr htarget)]
  have hfindings (overall : α) :
      validate { source with units := us } (.ofProject target) overall s =
        validate source (.ofProject target) overall s := by
    unfold validate Project.hasForms Project.hasDataAccess
    simp only [Project.any_units_of_perm hsourceUnits]
  unfold compare ofAudits
  rw [haudits, Project.fault?_of_perm hsourceUnits rfl, Project.fault?_of_perm htargetUnits rfl,
    TargetSummary.ofProject_of_perm htargetUnits]
  simp only [hfindings]

/-- Two units that declare a routine of one name, one of them twice. -/
theorem compare_reordered_overloads :
    let save : Routine := { name := "Save", kind := .procedure }
    let saveAs : Routine := { save with params := [{ name := "FileName" }] }
    let orders : SourceUnit :=
      { name := "uOrders", path := "uOrders.pas", language := .pascal, routines := [saveAs, save] }
    let invoices : SourceUnit :=
      { name := "uInvoices", path := "uInvoices.pas", language := .pascal, routines := [save] }
    ∃ r, compare (.ofUnits [orders, invoices]) (.ofUnits [customerController, orders])
        (.standard : ComparisonSettings Rat) = .ok r ∧
      compare { Project.ofUnits [orders, invoices] with units := [invoices, orders] }
        { Project.ofUnits [customerController, orders] with units := [orders, customerController] }
        (.standard : ComparisonSettings Rat) = .ok r := by
  intro save saveAs orders invoices
  have hreport : compare (.ofUnits [orders, invoices]) (.ofUnits [customerController, orders])
      (.standard : ComparisonSettings Rat) =
        .ok (ofProjects (.ofUnits [orders, invoices]) (.ofUnits [customerController, orders])
          .standard) := by
    refine compare_eq_ok_iff.mpr ⟨rfl, rfl, by decide +kernel, ?_, rfl⟩
    rw [ComparisonSettings.present_eq]
    decide
  refine ⟨_, hreport, ?_⟩
  rw [← hreport]
  exact compare_reordered .standard (by decide) (by decide) (List.Perm.swap _ _ _)
    (List.Perm.swap _ _ _)

end CoverageReport

end MigrationAudit
