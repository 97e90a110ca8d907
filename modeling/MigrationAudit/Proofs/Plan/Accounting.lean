import MigrationAudit.Proofs.Facts.Assembly
import MigrationAudit.Proofs.Plan.Parts
import MigrationAudit.Proofs.Plan.UnitOrder
import Mathlib.Data.List.Dedup

/-!
# What a plan accounts for

Every free routine, class and table of a project is one component of its plan, and every component is
in one phase, under one complexity and under one kind. So the efforts of the phases are together the
effort of the plan, in exact arithmetic, and the plan takes no less time than that.
-/

namespace MigrationAudit

open Text

/-- What a component is derived from. A table is meant by its name in capitals. -/
def Component.origin (c : Component) : SourceKind × Option String × String :=
  (c.sourceKind, c.unit, if c.sourceKind = .table then uppercase c.sourceName else c.sourceName)

def Project.tableKeys (p : Project) : List String :=
  p.units.flatMap fun u =>
    (u.dataOps.filter (·.kind.isSql)).filterMap fun op => op.table.map uppercase

/-- The free routines and classes of each unit, and each table once. -/
def Project.origins (p : Project) : List (SourceKind × Option String × String) :=
  (p.units.flatMap fun u =>
      u.routines.map (fun r => (.routine, some u.name, r.name)) ++
        u.classes.map fun c => (.declaredType, some u.name, c.name)) ++
    p.tableKeys.dedup.map fun key => (.table, none, key)

/-- A plan that has one component for whatever there is in a project, and has each of its components
in one phase, under one complexity and under one kind. -/
structure Plan.AccountsFor {α : Type} (plan : Plan α) (p : Project) : Prop where
  size : plan.components.length =
    (p.units.map (·.routines.length)).sum + (p.units.map (·.classes.length)).sum +
      p.tableKeys.dedup.length
  origins : (plan.components.map (·.origin)).Perm p.origins
  complexity : ∀ c ∈ plan.components, 1 ≤ c.complexity ∧ c.complexity ≤ 5
  phaseCount : plan.phases.length = 4
  phases : (plan.phases.flatMap (·.components)).Perm (plan.components.map (·.id))
  phaseOrder : ∀ ph ∈ plan.phases, ph.components.Sublist (plan.components.map (·.id))
  componentCount : plan.summary.componentCount = plan.components.length
  complexities : plan.summary.complexityCounts.map (·.1) = [1, 2, 3, 4, 5]
  complexityCounts :
    (plan.summary.complexityCounts.map (·.2)).sum = plan.summary.componentCount
  kindCounts : (plan.summary.kindCounts.map (·.2)).sum = plan.summary.componentCount

/-! ## Components -/

theorem clampComplexity_bounds (score : Nat) :
    1 ≤ clampComplexity score ∧ clampComplexity score ≤ 5 := by
  unfold clampComplexity
  omega

namespace Component

variable {α : Type} {s : PlanningSettings α} {known : List String} {u : SourceUnit}

theorem complexity_bounds_of_mem_drafts {c : Component} (hc : c ∈ drafts s known u) :
    1 ≤ c.complexity ∧ c.complexity ≤ 5 := by
  rcases mem_drafts_iff.mp hc with ⟨r, _, rfl⟩ | ⟨d, _, rfl⟩
  · exact clampComplexity_bounds _
  · simp only [ofClass, PlanningSettings.classComplexity]
    split
    · exact clampComplexity_bounds _
    · split <;> exact clampComplexity_bounds _

theorem complexity_bounds_of_mem_ofProject {p : Project} {c : Component} (hc : c ∈ ofProject p s) :
    1 ≤ c.complexity ∧ c.complexity ≤ 5 := by
  rw [ofProject_eq, List.mem_append] at hc
  rcases hc with hc | hc
  · obtain ⟨d, hd, hdc⟩ := exists_of_mem_numberApart (f := (·.complexity)) (fun _ _ => rfl) hc
    obtain ⟨u, _, hd⟩ := List.mem_flatMap.mp hd
    rw [← hdc]
    exact complexity_bounds_of_mem_drafts hd
  · obtain ⟨t, _, rfl⟩ := mem_tables_iff.mp hc
    change 1 ≤ 2 ∧ 2 ≤ 5
    decide

theorem map_origin_drafts : (drafts s known u).map (·.origin) =
    u.routines.map (fun r => (.routine, some u.name, r.name)) ++
      u.classes.map fun c => (.declaredType, some u.name, c.name) := by
  rw [drafts, List.map_append, List.map_map, List.map_map]
  rfl

theorem map_key_ofProject (p : Project) : (TableUse.ofProject p).map (·.key) = p.tableKeys := by
  simp only [TableUse.ofProject, Project.tableKeys, List.map_flatMap, List.map_filterMap,
    Option.map_map]
  rfl

theorem origin_ofTable {uses : List TableUse} {key : String} (h : ∃ t ∈ uses, t.key = key) :
    (ofTable uses key).origin = (.table, none, key) := by
  have hown : (uses.filter fun t => t.key == key) ≠ [] := by
    obtain ⟨t, ht, rfl⟩ := h
    exact List.ne_nil_of_mem (List.mem_filter.mpr ⟨ht, beq_self_eq_true _⟩)
  obtain ⟨t, rest, heq⟩ := List.exists_cons_of_ne_nil hown
  have ht : t.key = key := by
    have hmem : t ∈ uses.filter fun t => t.key == key := heq ▸ List.mem_cons_self
    simpa using (List.mem_filter.mp hmem).2
  simp only [origin, ofTable, heq, List.head?_cons, Option.elim_some, if_true]
  rw [← ht, TableUse.key]

theorem map_origin_tables (p : Project) :
    ((tables p).map (·.origin)).Perm (p.tableKeys.dedup.map fun key => (.table, none, key)) := by
  have horigin : (tables p).map (·.origin) =
      (sortBy compare p.tableKeys).eraseReps.map fun key => (.table, none, key) := by
    rw [tables, map_key_ofProject, List.map_map]
    apply List.map_congr_left
    intro key hkey
    rw [mem_eraseReps, mem_sortBy, ← map_key_ofProject] at hkey
    exact origin_ofTable (List.mem_map.mp hkey)
  have hkeys : (sortBy compare p.tableKeys).eraseReps.Perm p.tableKeys.dedup := by
    apply (List.perm_ext_iff_of_nodup (nodup_eraseReps_sortBy _) (List.nodup_dedup _)).mpr
    intro key
    rw [mem_eraseReps, mem_sortBy, List.mem_dedup]
  rw [horigin]
  exact hkeys.map _

theorem map_origin_ofProject (p : Project) (s : PlanningSettings α) :
    ((ofProject p s).map (·.origin)).Perm p.origins := by
  rw [ofProject_eq, List.map_append, map_numberApart fun _ _ _ => rfl, List.map_flatMap]
  simp only [map_origin_drafts]
  exact (map_origin_tables p).append_left _

end Component

theorem Project.length_origins (p : Project) :
    p.origins.length =
      (p.units.map (·.routines.length)).sum + (p.units.map (·.classes.length)).sum +
        p.tableKeys.dedup.length := by
  simp [origins, List.length_flatMap, List.sum_map_add]

/-! ## Phases -/

theorem Component.phaseIndex_lt {α : Type} (s : PlanningSettings α) (c : Component) :
    c.phaseIndex s < 4 := by
  unfold phaseIndex TargetKind.phaseIndex
  split
  · decide
  · split <;> decide

theorem EffortWeeks.total_flatMap {β : Type} (e : EffortWeeks Rat) (f : β → List Component)
    (l : List β) : e.total (l.flatMap f) = Scalar.sum (l.map fun b => e.total (f b)) := by
  have htotal (cs : List Component) : e.total cs = (cs.map fun c => e.of c.complexity).sum :=
    Scalar.sum_eq _
  rw [htotal, Scalar.sum_eq, List.map_flatMap, List.flatMap_def, List.sum_flatten, List.map_map]
  exact congrArg List.sum (List.map_congr_left fun b _ => (htotal (f b)).symm)

namespace Phase

section Members

variable {α : Type} (s : PlanningSettings α) (cs : List Component)

/-- The components of the phase at a place. -/
def members (index : Nat) : List Component := cs.filter fun c => c.phaseIndex s == index

theorem members_perm : ((List.range 4).flatMap (members s cs)).Perm cs := by
  apply flatMap_filter_perm List.nodup_range
  intro c _
  exact List.mem_range.mpr (c.phaseIndex_lt s)

variable [Scalar α]

theorem map_components_schedule : (schedule s cs).map (·.components) =
    (List.range 4).map fun index => (members s cs index).map (·.id) := rfl

theorem map_effortWeeks_schedule : (schedule s cs).map (·.effortWeeks) =
    (List.range 4).map fun index => s.effort.total (members s cs index) := rfl

theorem flatMap_components_schedule :
    ((schedule s cs).flatMap (·.components)).Perm (cs.map (·.id)) := by
  rw [List.flatMap_def, map_components_schedule, ← List.flatMap_def, ← List.map_flatMap]
  exact (members_perm s cs).map _

theorem components_sublist {ph : Phase α} (h : ph ∈ schedule s cs) :
    ph.components.Sublist (cs.map (·.id)) := by
  have hmem : ph.components ∈ (schedule s cs).map (·.components) := List.mem_map_of_mem h
  rw [map_components_schedule] at hmem
  obtain ⟨index, _, heq⟩ := List.mem_map.mp hmem
  rw [← heq]
  exact List.filter_sublist.map _

end Members

variable (s : PlanningSettings Rat) (cs : List Component)

theorem sum_effortWeeks_schedule :
    Scalar.sum ((schedule s cs).map (·.effortWeeks)) = s.effort.total cs := by
  rw [map_effortWeeks_schedule, ← EffortWeeks.total_flatMap]
  exact EffortWeeks.total_of_grades ((members_perm s cs).map _) _

theorem effortWeeks_le_durationWeeks {ph : Phase Rat} (h : ph ∈ schedule s cs) :
    ph.effortWeeks ≤ ph.durationWeeks := by
  obtain ⟨⟨t, index⟩, _, rfl⟩ := List.mem_map.mp h
  exact Scalar.le_max_right _ _

end Phase

/-! ## Counts -/

namespace PlanSummary

theorem sum_countComplexities {cs : List Component}
    (h : ∀ c ∈ cs, 1 ≤ c.complexity ∧ c.complexity ≤ 5) :
    ((countComplexities cs).map (·.2)).sum = cs.length := by
  have hkeys : ∀ c ∈ cs, c.complexity ∈ [1, 2, 3, 4, 5] := by
    intro c hc
    have hbounds := h c hc
    simp only [List.mem_cons, List.not_mem_nil, or_false]
    omega
  rw [countComplexities, List.map_map]
  exact sum_countP_key (by decide) hkeys

theorem sum_countKinds (cs : List Component) : ((countKinds cs).map (·.2)).sum = cs.length := by
  have hkeys : ∀ c ∈ cs, c.targetKind ∈ TargetKind.byName := by
    intro c _
    cases c.targetKind <;> decide
  have hzero (l : List (TargetKind × Nat)) :
      ((l.filter (·.2 != 0)).map (·.2)).sum = (l.map (·.2)).sum := by
    have hfilter := List.sum_filter_bne_zero (l.map (·.2))
    rwa [List.filter_map] at hfilter
  rw [countKinds, hzero, List.map_map]
  exact sum_countP_key (by decide) hkeys

end PlanSummary

/-! ## Plans -/

namespace Plan

theorem accountsFor_ofComponents {α : Type} [Scalar α] (p : Project) (s : PlanningSettings α)
    {cs : List Component} (hcs : cs.Perm (Component.ofProject p s)) :
    (ofComponents cs p s).AccountsFor p := by
  have horigins : (cs.map (·.origin)).Perm p.origins :=
    (hcs.map _).trans (Component.map_origin_ofProject p s)
  have hbounds : ∀ c ∈ cs, 1 ≤ c.complexity ∧ c.complexity ≤ 5 := by
    intro c hc
    exact Component.complexity_bounds_of_mem_ofProject (hcs.mem_iff.mp hc)
  constructor
  case size =>
    rw [← p.length_origins, ← horigins.length_eq, List.length_map]
    rfl
  case origins => exact horigins
  case complexity => exact hbounds
  case phaseCount => rfl
  case phases => exact Phase.flatMap_components_schedule s cs
  case phaseOrder => exact fun ph hph => Phase.components_sublist s cs hph
  case componentCount => rfl
  case complexities => rfl
  case complexityCounts => exact PlanSummary.sum_countComplexities hbounds
  case kindCounts => exact PlanSummary.sum_countKinds cs

theorem effort_ofComponents (cs : List Component) (p : Project) (s : PlanningSettings Rat) :
    Scalar.sum ((ofComponents cs p s).phases.map (·.effortWeeks)) =
      (ofComponents cs p s).totalEffortWeeks :=
  Phase.sum_effortWeeks_schedule s cs

theorem effort_le_duration_ofComponents (cs : List Component) (p : Project)
    (s : PlanningSettings Rat) :
    (ofComponents cs p s).totalEffortWeeks ≤ (ofComponents cs p s).totalDurationWeeks := by
  rw [← effort_ofComponents]
  apply Scalar.sum_mono
  apply List.forall₂_map_left_iff.mpr
  apply List.forall₂_map_right_iff.mpr
  apply List.forall₂_same.mpr
  intro ph hph
  exact Phase.effortWeeks_le_durationWeeks s cs hph

/-- A plan accounts for its whole project. In exact arithmetic its effort is that of its phases, and
its duration is no less. -/
theorem accountsFor_of_derive :
    (∀ {α : Type} [Scalar α] {p : Project} {s : PlanningSettings α} {plan : Plan α},
      derive p s = .ok plan → plan.AccountsFor p) ∧
    ∀ {p : Project} {s : PlanningSettings Rat} {plan : Plan Rat}, derive p s = .ok plan →
      Scalar.sum (plan.phases.map (·.effortWeeks)) = plan.totalEffortWeeks ∧
        plan.totalEffortWeeks ≤ plan.totalDurationWeeks := by
  constructor
  · intro α _ p s plan hplan
    obtain rfl := eq_ofComponents_of_derive hplan
    exact accountsFor_ofComponents p s (sortBy_perm _ _)
  · intro p s plan hplan
    obtain rfl := eq_ofComponents_of_derive hplan
    exact ⟨effort_ofComponents _ p s, effort_le_duration_ofComponents _ p s⟩

/-- Two routines of one name, a form that is given no complexity, and one table in two spellings. -/
theorem accountsFor_of_derive_sales :
    let select (table : String) : DataOp :=
      { kind := .select, raw := "SELECT * FROM " ++ table, table := some table }
    let sell : Routine := { name := "Sell", kind := .procedure }
    let sales : SourceUnit :=
      { name := "Sales", path := "sales.pas", language := .pascal, kind := .form
        classes := [{ name := "TSales", isFormLike := true }], routines := [sell, sell]
        dataOps := [select "orders", select "ORDERS"] }
    let s : PlanningSettings Rat := { formComplexity := 0, highComplexity := 2, effort := ⟨1, 2, 3⟩ }
    ∃ plan, Plan.derive (.ofUnits [sales]) s = .ok plan ∧ plan.AccountsFor (.ofUnits [sales]) ∧
      Scalar.sum (plan.phases.map (·.effortWeeks)) = plan.totalEffortWeeks ∧
        plan.totalEffortWeeks ≤ plan.totalDurationWeeks := by
  intro select sell sales s
  have hplan := derive_eq_ok (p := .ofUnits [sales]) (s := s) rfl
  exact ⟨_, hplan, accountsFor_of_derive.1 hplan, accountsFor_of_derive.2 hplan⟩

end Plan

end MigrationAudit
