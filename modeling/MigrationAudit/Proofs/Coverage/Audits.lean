import MigrationAudit.Coverage.Report
import MigrationAudit.Proofs.Coverage.BestCandidate
import MigrationAudit.Proofs.Lists

/-!
# What a comparison is made of

A comparison that goes through is the report on the categories in which the source project has
entities. Everything that is said of reports starts from this equation.
-/

namespace MigrationAudit

/-! ## Reports -/

namespace Category

theorem mem_all (c : Category) : c ∈ all := by
  cases c <;> simp [all]

theorem nodup_all : all.Nodup := by
  decide

end Category

namespace ComparisonSettings

variable {α : Type} (s : ComparisonSettings α) (source : Project)

/-- The categories in which a project has source entities, in the order of reports. -/
def present : List Category := Category.all.filter fun c => !(s.sourceEntities source c).isEmpty

theorem mem_present {c : Category} : c ∈ s.present source ↔ s.sourceEntities source c ≠ [] := by
  simp [present, Category.mem_all]

theorem length_sourceEntities_pos {c : Category} (h : c ∈ s.present source) :
    0 < (s.sourceEntities source c).length :=
  List.length_pos_of_ne_nil ((s.mem_present source).mp h)

theorem nodup_present : (s.present source).Nodup := Category.nodup_all.filter _

end ComparisonSettings

variable {α : Type} [Scalar α]

theorem CategoryAudit.filterMap_of? (s : ComparisonSettings α) (source target : Project)
    (categories : List Category) :
    categories.filterMap (of? s source target) =
      (categories.filter fun c => !(s.sourceEntities source c).isEmpty).map
        (of s source target) := by
  induction categories with
  | nil => rfl
  | cons c categories ih =>
      rw [List.filterMap_cons, List.filter_cons, ih, of?]
      cases (s.sourceEntities source c).isEmpty <;> simp

namespace CoverageReport

/-- The report on the categories in which the source project has entities. -/
def ofProjects (source target : Project) (s : ComparisonSettings α) : CoverageReport α :=
  ofAudits ((s.present source).map (CategoryAudit.of s source target)) source target s

theorem compare_eq (source target : Project) (s : ComparisonSettings α) :
    compare source target s =
      match source.fault?, target.fault?, s.thresholds.fault? with
      | some fault, _, _ => .error (.facts .source fault)
      | none, some fault, _ => .error (.facts .target fault)
      | none, none, some fault => .error (.threshold fault)
      | none, none, none =>
        if s.present source = [] then .error .nothingToCompare
        else .ok (ofProjects source target s) := by
  have haudits := CategoryAudit.filterMap_of? s source target Category.all
  rw [← ComparisonSettings.present] at haudits
  unfold compare ofProjects
  rw [haudits]
  cases source.fault? with
  | some fault => rfl
  | none =>
      cases target.fault? with
      | some fault => rfl
      | none =>
          cases s.thresholds.fault? with
          | some fault => rfl
          | none => cases s.present source <;> rfl

theorem compare_eq_ok_iff {source target : Project} {s : ComparisonSettings α}
    {r : CoverageReport α} :
    compare source target s = .ok r ↔
      source.fault? = none ∧ target.fault? = none ∧ s.thresholds.fault? = none ∧
        s.present source ≠ [] ∧ r = ofProjects source target s := by
  rw [compare_eq]
  cases source.fault? <;> cases target.fault? <;> cases s.thresholds.fault? <;>
    by_cases hpresent : s.present source = [] <;> simp [hpresent, eq_comm]

end CoverageReport

/-! ## Links -/

namespace ComparisonSettings

variable {s : ComparisonSettings α} {category : Category} {targets : List Entity}
  {source : Entity}

theorem link_eq_inl_iff {e : Edge α} :
    s.link category targets source = .inl e ↔
      ∃ c, bestCandidate? s source targets = some c ∧
        s.thresholds.minConfidence ≤ c.confidence ∧ e = ⟨category, source, c⟩ := by
  unfold link
  cases hbest : bestCandidate? s source targets with
  | none => simp
  | some c =>
      by_cases hconfidence : s.thresholds.minConfidence ≤ c.confidence <;>
        simp [hconfidence, eq_comm]

theorem link_eq_inr_iff {g : Gap α} :
    s.link category targets source = .inr g ↔
      (∀ c, bestCandidate? s source targets = some c →
        ¬ s.thresholds.minConfidence ≤ c.confidence) ∧
        g = ⟨category, source, bestCandidate? s source targets⟩ := by
  unfold link
  cases hbest : bestCandidate? s source targets with
  | none => simp [eq_comm]
  | some c =>
      by_cases hconfidence : s.thresholds.minConfidence ≤ c.confidence <;>
        simp [hconfidence, eq_comm]

end ComparisonSettings

namespace CategoryAudit

variable {s : ComparisonSettings α} {source target : Project} {category : Category}

theorem mem_edges {e : Edge α} :
    e ∈ (of s source target category).edges ↔
      ∃ entity ∈ s.sourceEntities source category,
        s.link category (s.targetEntities target category) entity = .inl e := by
  simp [of, List.mem_filterMap, Sum.getLeft?_eq_some_iff]

theorem mem_gaps {g : Gap α} :
    g ∈ (of s source target category).gaps ↔
      ∃ entity ∈ s.sourceEntities source category,
        s.link category (s.targetEntities target category) entity = .inr g := by
  simp [of, List.mem_filterMap, Sum.getRight?_eq_some_iff]

theorem category_of_mem_edges {e : Edge α} (he : e ∈ (of s source target category).edges) :
    e.category = category := by
  obtain ⟨entity, _, hlink⟩ := mem_edges.mp he
  obtain ⟨c, _, _, rfl⟩ := ComparisonSettings.link_eq_inl_iff.mp hlink
  rfl

theorem category_of_mem_gaps {g : Gap α} (hg : g ∈ (of s source target category).gaps) :
    g.category = category := by
  obtain ⟨entity, _, hlink⟩ := mem_gaps.mp hg
  obtain ⟨_, rfl⟩ := ComparisonSettings.link_eq_inr_iff.mp hlink
  rfl

end CategoryAudit

end MigrationAudit
