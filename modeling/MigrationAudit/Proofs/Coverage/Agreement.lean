import MigrationAudit.Proofs.Coverage.Correspondence
import MigrationAudit.Proofs.Scalar.Values

/-!
# Reports that agree with themselves

What a report says of the targets is reckoned twice: once by the entities that are matched, and once
by the classes that are counted. Forms are recognized twice as well, as classes to be matched and as
a reason for a rule to apply. The parts of a report agree: each category has as many targets as the
summary counts, forms that are linked do not fail the rules, and forms without any controller are
gaps, fail their rule and no other one, and call for action.
-/

namespace MigrationAudit

/-! ## Targets -/

namespace TargetSummary

/-- What a summary counts as the targets of a category. -/
def countOf (t : TargetSummary) : Category → Nat
  | .routines => t.routines
  | .classes => t.classes
  | .forms => t.controllers
  | .dataModules => t.services

theorem countOf_ofProject (p : Project) (c : Category) :
    (ofProject p).countOf c = (p.targetLabels c).length := by
  cases c <;>
    simp [countOf, ofProject, Project.targetLabels, Project.routineLabels, Project.classLabels,
      List.countP_map, ← List.countP_eq_length_filter, Function.comp_def]

end TargetSummary

theorem ComparisonSettings.length_targetEntities {α : Type} (s : ComparisonSettings α)
    (p : Project) (c : Category) :
    (s.targetEntities p c).length = (TargetSummary.ofProject p).countOf c := by
  rw [TargetSummary.countOf_ofProject, ← (s.map_label_targetEntities p c).length_eq,
    List.length_map]

namespace Project

variable {p : Project}

def HasFormClass (p : Project) : Prop := ∃ u ∈ p.units, ∃ c ∈ u.classes, c.isFormLike

def HasController (p : Project) : Prop :=
  ∃ u ∈ p.units, ∃ c ∈ u.classes, c.stereotype = some .controller

theorem mem_classLabels {wanted : ClassDecl → Bool} {label : String × String} :
    label ∈ p.classLabels wanted ↔
      ∃ u ∈ p.units, ∃ c ∈ u.classes, wanted c ∧ (c.name, u.name) = label := by
  simp only [classLabels, allClasses, List.mem_map, List.mem_filter, List.mem_flatMap]
  constructor
  · rintro ⟨_, ⟨⟨u, hu, c, hc, rfl⟩, hwanted⟩, rfl⟩
    exact ⟨u, hu, c, hc, hwanted, rfl⟩
  · rintro ⟨u, hu, c, hc, hwanted, rfl⟩
    exact ⟨(u, c), ⟨⟨u, hu, c, hc, rfl⟩, hwanted⟩, rfl⟩

theorem sourceLabels_forms_ne_nil (h : p.HasFormClass) : p.sourceLabels .forms ≠ [] := by
  obtain ⟨u, hu, c, hc, hform⟩ := h
  exact List.ne_nil_of_mem (mem_classLabels.mpr ⟨u, hu, c, hc, hform, rfl⟩)

theorem targetLabels_forms_eq_nil (h : ¬ p.HasController) : p.targetLabels .forms = [] := by
  apply List.eq_nil_iff_forall_not_mem.mpr
  intro label hlabel
  rw [targetLabels, mem_classLabels] at hlabel
  obtain ⟨u, hu, c, hc, hwanted, -⟩ := hlabel
  exact h ⟨u, hu, c, hc, eq_of_beq hwanted⟩

theorem hasForms_of_hasFormClass (h : p.HasFormClass) : p.hasForms := by
  obtain ⟨u, hu, c, hc, hform⟩ := h
  apply List.any_eq_true.mpr
  refine ⟨u, hu, ?_⟩
  rw [Bool.or_eq_true]
  exact Or.inr (List.any_eq_true.mpr ⟨c, hc, hform⟩)

end Project

/-! ## Rules -/

section Rules

variable {α : Type} [Scalar α]

theorem Finding.verdict_eq_fail_iff {f : Finding α} : f.verdict = .fail ↔ f = .controllers 0 := by
  cases f with
  | coverage overall threshold =>
    rw [verdict]
    split <;> simp
  | controllers count =>
    rw [verdict]
    split <;> simp <;> omega
  | persistence entities repositories =>
    rw [verdict]
    split <;> simp

/-- The only rule that fails is the one on controllers. -/
theorem failures_validate (source : Project) (target : TargetSummary) (overall : α)
    (s : ComparisonSettings α) :
    (validate source target overall s).filter (fun f => f.verdict = .fail) =
      if source.hasForms ∧ target.controllers = 0 then [.controllers 0] else [] := by
  have hcoverage (threshold : α) : (Finding.coverage overall threshold).verdict ≠ .fail := by
    simp [Finding.verdict_eq_fail_iff]
  have hcontrollers : (Finding.controllers target.controllers : Finding α).verdict = .fail ↔
      target.controllers = 0 := by
    simp [Finding.verdict_eq_fail_iff]
  have hpersistence :
      (Finding.persistence target.entities target.repositories : Finding α).verdict ≠ .fail := by
    simp [Finding.verdict_eq_fail_iff]
  unfold validate
  cases source.hasForms <;> cases source.hasDataAccess <;>
    by_cases hnone : target.controllers = 0 <;>
    simp_all

theorem Verdict.aggregate_eq_fail_iff {verdicts : List Verdict} :
    aggregate verdicts = .fail ↔ .fail ∈ verdicts := by
  rw [← List.count_pos_iff]
  unfold aggregate
  split
  · simp [*]
  · split <;> simp [*]

theorem exists_critical_iff {verdicts : List Verdict} {overall : α} {gaps : Nat}
    {s : ComparisonSettings α} :
    (∃ a ∈ recommend verdicts overall gaps s, a.priority = .critical) ↔ .fail ∈ verdicts := by
  rw [← List.count_pos_iff]
  unfold recommend
  dsimp only
  split <;> split <;> simp [*, Recommendation.priority]

end Rules

theorem coverageOf_zero {n : ℕ} (h : 0 < n) : (coverageOf 0 n : Float) = 0 := by
  unfold coverageOf
  rw [Scalar.ratio_zero h]
  decide +kernel

namespace CategoryAudit

variable {α : Type} [Scalar α] {s : ComparisonSettings α} {source target : Project} {c : Category}

/-- Without targets there are only gaps, and none of them has a candidate. -/
theorem gaps_of_no_target (h : s.targetEntities target c = []) :
    (of s source target c).edges = [] ∧ ∀ g ∈ (of s source target c).gaps, g.best = none := by
  have hbest (entity : Entity) : bestCandidate? s entity (s.targetEntities target c) = none := by
    apply bestCandidate?_eq_none_iff.mpr
    simp [h]
  constructor
  · apply List.eq_nil_iff_forall_not_mem.mpr
    intro e he
    obtain ⟨entity, -, hlink⟩ := mem_edges.mp he
    obtain ⟨candidate, hsome, -⟩ := ComparisonSettings.link_eq_inl_iff.mp hlink
    rw [hbest] at hsome
    exact Option.some_ne_none candidate hsome.symm
  · intro g hg
    obtain ⟨entity, -, hlink⟩ := mem_gaps.mp hg
    obtain ⟨-, rfl⟩ := ComparisonSettings.link_eq_inr_iff.mp hlink
    exact hbest entity

end CategoryAudit

theorem CategoryAudit.coverage_of_no_edge {s : ComparisonSettings Float} {source target : Project}
    {c : Category} (hedges : (of s source target c).edges = []) (hc : c ∈ s.present source) :
    (of s source target c).coverage.coverage = 0 := by
  change coverageOf (of s source target c).edges.length (s.sourceEntities source c).length = 0
  rw [hedges]
  exact coverageOf_zero (s.length_sourceEntities_pos source hc)

namespace CoverageReport

/-- The forms of a source project have nothing in the target project to be matched with. -/
structure MissesForms (r : CoverageReport Float) (source : Project) : Prop where
  coverage_eq : (r.categories.filter (·.category = .forms)).map (·.coverage) = [0]
  gaps_perm : ((r.gapsIn .forms).map (·.source.label)).Perm (source.classLabels (·.isFormLike))
  best_eq : ∀ g ∈ r.gapsIn .forms, g.best = none
  failures_eq : (r.findings.filter (fun f => f.verdict = .fail)).map Finding.rule = ["controllers"]
  verdict_eq : r.verdict = .fail
  critical : ∃ a ∈ r.recommendations, a.priority = .critical

/-- What the parts of a report say of two projects fits together. -/
structure Agrees (r : CoverageReport Float) (source target : Project) : Prop where
  targetCount_eq : ∀ cov ∈ r.categories, cov.targetCount = r.targetSummary.countOf cov.category
  linked : r.edgesIn .forms ≠ [] → ∀ f ∈ r.findings, f.verdict ≠ .fail
  missing : source.HasFormClass → ¬ target.HasController → r.MissesForms source

section OfProjects

variable (source target : Project) (s : ComparisonSettings Float)

theorem targetCount_ofProjects {cov : CategoryCoverage Float}
    (hcov : cov ∈ (ofProjects source target s).categories) :
    cov.targetCount = (TargetSummary.ofProject target).countOf cov.category := by
  rw [categories_ofProjects] at hcov
  obtain ⟨c, -, rfl⟩ := List.mem_map.mp hcov
  exact s.length_targetEntities target c

theorem failures_ofProjects :
    (ofProjects source target s).findings.filter (fun f => f.verdict = .fail) =
      if source.hasForms ∧ (TargetSummary.ofProject target).countOf .forms = 0 then
        [.controllers 0]
      else [] :=
  failures_validate source (.ofProject target) _ s

theorem not_fail_of_linked (h : (ofProjects source target s).edgesIn .forms ≠ []) :
    ∀ f ∈ (ofProjects source target s).findings, f.verdict ≠ .fail := by
  obtain ⟨e, he⟩ := List.exists_mem_of_ne_nil _ h
  rw [edgesIn_ofProjects] at he
  have htarget := (target_of_mem_edges he).2
  rw [CategoryAudit.category_of_mem_edges he] at htarget
  have hcount : (TargetSummary.ofProject target).countOf .forms ≠ 0 := by
    rw [TargetSummary.countOf_ofProject]
    exact (List.length_pos_of_mem htarget).ne'
  have hfailures := failures_ofProjects source target s
  rw [if_neg fun hforms => hcount hforms.2, List.filter_eq_nil_iff] at hfailures
  intro f hf
  simpa using hfailures f hf

variable {source target}

theorem missesForms_ofProjects (hform : source.HasFormClass) (hnone : ¬ target.HasController) :
    (ofProjects source target s).MissesForms source := by
  have hcount : (TargetSummary.ofProject target).countOf .forms = 0 := by
    rw [TargetSummary.countOf_ofProject, Project.targetLabels_forms_eq_nil hnone, List.length_nil]
  have htargets : s.targetEntities target .forms = [] := by
    rw [← List.length_eq_zero_iff, s.length_targetEntities, hcount]
  obtain ⟨hedges, hbest⟩ : (CategoryAudit.of s source target .forms).edges = [] ∧ _ :=
    CategoryAudit.gaps_of_no_target htargets
  -- forms without any controller make their rule fail, and no other rule can
  have hfailures := failures_ofProjects source target s
  rw [if_pos ⟨Project.hasForms_of_hasFormClass hform, hcount⟩] at hfailures
  have hfail : Verdict.fail ∈ (ofProjects source target s).findings.map Finding.verdict := by
    have hmem : Finding.controllers 0 ∈ (ofProjects source target s).findings.filter
        (fun f => f.verdict = .fail) := by
      rw [hfailures]
      exact List.mem_singleton_self _
    obtain ⟨hfinding, hverdict⟩ := List.mem_filter.mp hmem
    exact List.mem_map.mpr ⟨_, hfinding, of_decide_eq_true hverdict⟩
  constructor
  case coverage_eq =>
    have hforms : .forms ∈ s.present source := by
      rw [s.present_eq, List.mem_filter]
      exact ⟨Category.mem_all _, by simpa using Project.sourceLabels_forms_ne_nil hform⟩
    have hlisted : (s.present source).filter (· = .forms) = [.forms] := by
      rw [List.filter_eq, List.count_eq_one_of_mem (s.nodup_present source) hforms]
      rfl
    rw [categories_ofProjects, List.filter_map, List.map_map]
    change ((s.present source).filter (· = .forms)).map _ = _
    rw [hlisted, List.map_singleton]
    exact congrArg (· :: []) (CategoryAudit.coverage_of_no_edge hedges hforms)
  case gaps_perm =>
    have hperm := CategoryAudit.labels_perm s source target .forms
    rw [hedges, List.map_nil, List.nil_append] at hperm
    rwa [gapsIn_ofProjects]
  case best_eq =>
    rw [gapsIn_ofProjects]
    exact hbest
  case failures_eq =>
    rw [hfailures]
    rfl
  case verdict_eq => exact Verdict.aggregate_eq_fail_iff.mpr hfail
  case critical => exact exists_critical_iff.mpr hfail

end OfProjects

theorem compare_agrees {source target : Project} {s : ComparisonSettings Float}
    {r : CoverageReport Float} (h : compare source target s = .ok r) : r.Agrees source target := by
  obtain ⟨-, -, -, -, rfl⟩ := compare_eq_ok_iff.mp h
  constructor
  case targetCount_eq =>
    intro cov hcov
    exact targetCount_ofProjects source target s hcov
  case linked => exact not_fail_of_linked source target s
  case missing => exact missesForms_ofProjects s

/-- A form that is compared with itself has no controller to take its place. -/
theorem compare_agrees_customerForm :
    ∃ r, compare (.ofUnits [customerForm]) (.ofUnits [customerForm])
        (.standard : ComparisonSettings Float) = .ok r ∧
      r.MissesForms (.ofUnits [customerForm]) := by
  have hok : compare (.ofUnits [customerForm]) (.ofUnits [customerForm]) .standard =
      .ok (ofProjects (.ofUnits [customerForm]) (.ofUnits [customerForm])
        (.standard : ComparisonSettings Float)) :=
    compare_customerForm_of_thresholds rfl (by decide +kernel)
  refine ⟨_, hok, (compare_agrees hok).missing ?_ ?_⟩
  · exact ⟨customerForm, List.mem_singleton_self _, _, List.mem_singleton_self _, rfl⟩
  · rintro ⟨u, hu, c, hc, hcontroller⟩
    obtain rfl := List.mem_singleton.mp hu
    obtain rfl := List.mem_singleton.mp hc
    cases hcontroller

end CoverageReport

end MigrationAudit
