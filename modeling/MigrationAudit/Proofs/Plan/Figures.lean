import MigrationAudit.Plan.Basic
import MigrationAudit.Proofs.Scalar.Exact

/-!
# Figures of a plan

Counts, efforts and durations are made of the kinds and complexities of the components. They do not
see what a component is called, and in exact arithmetic not where it stands either.
-/

namespace MigrationAudit

theorem totalOf_eq_sum {β : Type} (count : β → Nat) (l : List β) :
    totalOf count l = (l.map count).sum := by
  induction l with
  | nil => rfl
  | cons b l ih => rw [totalOf_cons, List.map_cons, List.sum_cons, ih]

theorem totalOf_of_perm {β : Type} (count : β → Nat) {l l' : List β} (h : l.Perm l') :
    totalOf count l = totalOf count l' := by
  rw [totalOf_eq_sum, totalOf_eq_sum, (h.map count).sum_eq]

/-- What a component counts as. -/
def Component.grade (c : Component) : TargetKind × Nat := (c.targetKind, c.complexity)

def Phase.figures {α : Type} (ph : Phase α) : Phase α := { ph with components := [] }

def Plan.figures {α : Type} (plan : Plan α) : Plan α :=
  { plan with
    components := []
    phases := plan.phases.map (·.figures)
    summary := { plan.summary with priority := [] } }

section Grades

variable {cs cs' : List Component} (h : (cs.map (·.grade)).Perm (cs'.map (·.grade)))
include h

theorem countP_of_grades (wanted : TargetKind × Nat → Bool) :
    (cs.countP fun c => wanted c.grade) = cs'.countP fun c => wanted c.grade := by
  have hcount := h.countP_eq wanted
  rwa [List.countP_map, List.countP_map] at hcount

theorem filter_of_grades (wanted : TargetKind × Nat → Bool) :
    ((cs.filter fun c => wanted c.grade).map (·.grade)).Perm
      ((cs'.filter fun c => wanted c.grade).map (·.grade)) := by
  have hfilter := h.filter wanted
  rwa [List.filter_map, List.filter_map] at hfilter

theorem map_complexity_of_grades : (cs.map (·.complexity)).Perm (cs'.map (·.complexity)) := by
  have hmap := h.map Prod.snd
  rwa [List.map_map, List.map_map] at hmap

theorem PlanSummary.risks_of_grades {α : Type} [Scalar α] (s : PlanningSettings α)
    {p p' : Project} (hunits : p.units.Perm p'.units)
    (hdiagnostics : p.diagnostics = p'.diagnostics) : risks cs p s = risks cs' p' s := by
  have hmaximal : cs.countP (·.complexity == 5) = cs'.countP (·.complexity == 5) :=
    countP_of_grades h fun g => g.2 == 5
  have hhigh : (cs.countP fun c => s.highComplexity ≤ c.complexity) =
      cs'.countP fun c => s.highComplexity ≤ c.complexity :=
    countP_of_grades h fun g => s.highComplexity ≤ g.2
  rw [risks, risks, hmaximal, hhigh, totalOf_of_perm _ hunits, hdiagnostics]

theorem EffortWeeks.total_of_grades (e : EffortWeeks Rat) : e.total cs = e.total cs' := by
  have hweeks := (map_complexity_of_grades h).map e.of
  rw [List.map_map, List.map_map] at hweeks
  rw [total, total, Scalar.sum_eq, Scalar.sum_eq]
  exact hweeks.sum_eq

variable (s : PlanningSettings Rat)

theorem Phase.figures_ofTemplate_of_grades (t : PhaseTemplate) (index : Nat) :
    (ofTemplate s cs t index).figures = (ofTemplate s cs' t index).figures := by
  have hown := filter_of_grades h fun g =>
    (if s.highComplexity ≤ g.2 then 3 else g.1.phaseIndex) == index
  have htotal : s.effort.total (cs.filter fun c => c.phaseIndex s == index) =
      s.effort.total (cs'.filter fun c => c.phaseIndex s == index) :=
    s.effort.total_of_grades hown
  simp only [figures, ofTemplate, htotal]

theorem Phase.figures_schedule_of_grades :
    (schedule s cs).map (·.figures) = (schedule s cs').map (·.figures) := by
  rw [schedule, schedule, List.map_map, List.map_map]
  apply List.map_congr_left
  rintro ⟨t, index⟩ _
  exact figures_ofTemplate_of_grades h s t index

theorem PlanSummary.average_of_grades : (average cs : Rat) = average cs' := by
  have hlength : cs.length = cs'.length := by simpa using h.length_eq
  have hempty : cs.isEmpty = cs'.isEmpty := by simpa using h.isEmpty_eq
  have htotal : totalOf (·.complexity) cs = totalOf (·.complexity) cs' := by
    rw [totalOf_eq_sum, totalOf_eq_sum, (map_complexity_of_grades h).sum_eq]
  rw [average, average, hempty, hlength, htotal]

/-- Plans of components of the same grades differ in nothing but their components. -/
theorem Plan.figures_ofComponents_of_grades {p p' : Project} (hunits : p.units.Perm p'.units)
    (hdiagnostics : p.diagnostics = p'.diagnostics) :
    (ofComponents cs p s).figures = (ofComponents cs' p' s).figures := by
  have hdurations (l : List Component) : (Phase.schedule s l).map (·.durationWeeks) =
      ((Phase.schedule s l).map (·.figures)).map (·.durationWeeks) := by
    rw [List.map_map]
    rfl
  have hlength : cs.length = cs'.length := by simpa using h.length_eq
  have hcomplexity (n : Nat) : cs.countP (·.complexity == n) = cs'.countP (·.complexity == n) :=
    countP_of_grades h fun g => g.2 == n
  have hkind (k : TargetKind) : cs.countP (·.targetKind == k) = cs'.countP (·.targetKind == k) :=
    countP_of_grades h fun g => g.1 == k
  simp only [figures, ofComponents, PlanSummary.ofComponents, PlanSummary.countComplexities,
    PlanSummary.countKinds, hdurations, Phase.figures_schedule_of_grades h s,
    s.effort.total_of_grades h, PlanSummary.average_of_grades h,
    PlanSummary.risks_of_grades h s hunits hdiagnostics, hlength, hcomplexity, hkind]

end Grades

/-- The same components in the same order make the same plan, however the units come. -/
theorem Plan.ofComponents_of_perm {α : Type} [Scalar α] (s : PlanningSettings α)
    (cs : List Component) {p p' : Project} (hunits : p.units.Perm p'.units)
    (hdiagnostics : p.diagnostics = p'.diagnostics) :
    ofComponents cs p s = ofComponents cs p' s := by
  have hgrades := List.Perm.refl (cs.map (·.grade))
  have hrisks := PlanSummary.risks_of_grades hgrades s hunits hdiagnostics
  simp only [ofComponents, PlanSummary.ofComponents, hrisks]

end MigrationAudit
