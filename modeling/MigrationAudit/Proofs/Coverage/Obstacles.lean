import MigrationAudit.Error
import MigrationAudit.Proofs.Coverage.Correspondence
import MigrationAudit.Proofs.Plan.UnitOrder
import MigrationAudit.Proofs.Settings.Ranges

/-!
# What stands in the way of a comparison

The facts of the source are looked at first, then those of the target, then the thresholds. That
there is nothing to compare turns out last, when no category could be reported on. Forms and data
modules are classes, so this is a source with neither a routine nor a class. A plan needs usable
facts and nothing else.
-/

namespace MigrationAudit

/-! ## Facts -/

namespace Project

variable {p : Project} {fault : FactsFault}

/-- What is wrong with the facts of a project: the schema version, or else that there are no
units. -/
inductive HasFault (p : Project) : FactsFault → Prop
  | otherVersion (h : p.schemaVersion ≠ MigrationAudit.schemaVersion) :
      p.HasFault (.otherVersion p.schemaVersion)
  | noUnits (hversion : p.schemaVersion = MigrationAudit.schemaVersion) (h : p.units = []) :
      p.HasFault .noUnits

/-- Facts of the current schema version about at least one unit. -/
structure IsUsable (p : Project) : Prop where
  version_eq : p.schemaVersion = MigrationAudit.schemaVersion
  units_ne : p.units ≠ []

def IsBare (p : Project) : Prop := ∀ u ∈ p.units, u.routines = [] ∧ u.classes = []

theorem fault?_eq_some_iff : p.fault? = some fault ↔ p.HasFault fault := by
  unfold fault?
  split_ifs with hversion hunits
  · constructor
    · rintro ⟨⟩
      exact .otherVersion hversion
    · rintro (_ | ⟨hversion', _⟩)
      · rfl
      · exact absurd hversion' hversion
  · rw [not_not] at hversion
    constructor
    · rintro ⟨⟩
      exact .noUnits hversion (List.isEmpty_iff.mp hunits)
    · rintro (hversion' | _)
      · exact absurd hversion hversion'
      · rfl
  · rw [not_not] at hversion
    constructor
    · rintro ⟨⟩
    · rintro (hversion' | ⟨_, hunits'⟩)
      · exact absurd hversion hversion'
      · exact absurd (List.isEmpty_iff.mpr hunits') hunits

theorem fault?_eq_none_iff : p.fault? = none ↔ p.IsUsable := by
  have hiff : p.fault? = none ↔ ∀ fault, ¬ p.HasFault fault := by
    simp only [Option.eq_none_iff_forall_ne_some, ne_eq, fault?_eq_some_iff]
  rw [hiff]
  constructor
  · intro h
    have hversion : p.schemaVersion = MigrationAudit.schemaVersion := by
      by_contra hversion
      exact h _ (.otherVersion hversion)
    exact ⟨hversion, fun hunits => h _ (.noUnits hversion hunits)⟩
  · rintro h _ (hversion | ⟨_, hunits⟩)
    · exact hversion h.version_eq
    · exact h.units_ne hunits

theorem isBare_iff : p.IsBare ↔ p.allRoutines = [] ∧ p.allClasses = [] := by
  simp only [IsBare, allRoutines, allClasses, SourceUnit.allRoutines, List.flatMap_eq_nil_iff,
    List.map_eq_nil_iff, List.append_eq_nil_iff]
  constructor
  · intro h
    refine ⟨fun u hu => ⟨(h u hu).1, fun c hc => ?_⟩, fun u hu => (h u hu).2⟩
    rw [(h u hu).2] at hc
    cases hc
  · rintro ⟨hroutines, hclasses⟩ u hu
    exact ⟨(hroutines u hu).1, hclasses u hu⟩

end Project

/-! ## Categories -/

/-- Every category is empty as soon as there are no routines and no classes, and only then. -/
theorem ComparisonSettings.present_eq_nil_iff {α : Type} (s : ComparisonSettings α) (p : Project) :
    s.present p = [] ↔ p.IsBare := by
  rw [Project.isBare_iff, present_eq, List.filter_eq_nil_iff]
  constructor
  · intro h
    have hroutines := h .routines (Category.mem_all _)
    have hclasses := h .classes (Category.mem_all _)
    simpa [Project.sourceLabels, Project.routineLabels, Project.classLabels] using
      And.intro hroutines hclasses
  · rintro ⟨hroutines, hclasses⟩ c _
    cases c <;>
      simp [Project.sourceLabels, Project.routineLabels, Project.classLabels, hroutines, hclasses]

/-! ## Comparisons -/

namespace CoverageReport

variable (source target : Project) (s : ComparisonSettings Float)

/-- What stands in the way of a comparison, with the class of the error: the first obstacle
counts. -/
inductive Obstacle : ErrorKind → CompareFault Float → Prop
  | source {fault : FactsFault} (h : source.HasFault fault) :
      Obstacle .precondition (.facts .source fault)
  | target {fault : FactsFault} (hsource : source.IsUsable) (h : target.HasFault fault) :
      Obstacle .precondition (.facts .target fault)
  | threshold {fault : ThresholdFault Float} (hsource : source.IsUsable) (htarget : target.IsUsable)
      (h : s.thresholds.IsFirstFault fault) : Obstacle .invalidArguments (.threshold fault)
  | nothingToCompare (hsource : source.IsUsable) (htarget : target.IsUsable)
      (hthresholds : s.thresholds.AreInRange) (h : source.IsBare) :
      Obstacle .precondition .nothingToCompare

variable {source target s}

theorem obstacle_of_compare_eq {fault : CompareFault Float}
    (h : compare source target s = .error fault) :
    Obstacle source target s (AuditError.ofCompareFault fault).kind fault := by
  rw [compare_eq] at h
  split at h
  next hsource =>
    obtain rfl := Except.error.inj h
    exact .source (Project.fault?_eq_some_iff.mp hsource)
  next hsource htarget =>
    obtain rfl := Except.error.inj h
    exact .target (Project.fault?_eq_none_iff.mp hsource) (Project.fault?_eq_some_iff.mp htarget)
  next hsource htarget hthresholds =>
    obtain rfl := Except.error.inj h
    exact .threshold (Project.fault?_eq_none_iff.mp hsource) (Project.fault?_eq_none_iff.mp htarget)
      (Thresholds.fault?_eq_some_iff.mp hthresholds)
  next hsource htarget hthresholds =>
    split at h
    next hpresent =>
      obtain rfl := Except.error.inj h
      exact .nothingToCompare (Project.fault?_eq_none_iff.mp hsource)
        (Project.fault?_eq_none_iff.mp htarget) (Thresholds.fault?_eq_none_iff.mp hthresholds)
        ((s.present_eq_nil_iff source).mp hpresent)
    next => cases h

theorem Obstacle.compare_eq {kind : ErrorKind} {fault : CompareFault Float}
    (h : Obstacle source target s kind fault) : compare source target s = .error fault := by
  rw [CoverageReport.compare_eq]
  cases h with
  | source h => rw [Project.fault?_eq_some_iff.mpr h]
  | target hsource h =>
    rw [Project.fault?_eq_none_iff.mpr hsource, Project.fault?_eq_some_iff.mpr h]
  | threshold hsource htarget h =>
    rw [Project.fault?_eq_none_iff.mpr hsource, Project.fault?_eq_none_iff.mpr htarget,
      Thresholds.fault?_eq_some_iff.mpr h]
  | nothingToCompare hsource htarget hthresholds h =>
    rw [Project.fault?_eq_none_iff.mpr hsource, Project.fault?_eq_none_iff.mpr htarget,
      Thresholds.fault?_eq_none_iff.mpr hthresholds]
    exact if_pos ((s.present_eq_nil_iff source).mpr h)

theorem exists_compare_eq_ok_iff :
    (∃ r, compare source target s = .ok r) ↔
      source.IsUsable ∧ target.IsUsable ∧ s.thresholds.AreInRange ∧ ¬ source.IsBare := by
  simp only [compare_eq_ok_iff, exists_and_left, exists_eq, and_true, Project.fault?_eq_none_iff,
    Thresholds.fault?_eq_none_iff, ne_eq, ComparisonSettings.present_eq_nil_iff]

end CoverageReport

/-! ## Plans -/

theorem Plan.derive_eq_error_iff {α : Type} [Scalar α] {p : Project} {s : PlanningSettings α}
    {fault : FactsFault} : derive p s = .error fault ↔ p.HasFault fault := by
  rw [← Project.fault?_eq_some_iff, derive]
  cases p.fault? <;> simp

/-- Comparing fails with the first obstacle there is, and else reports on some category. Planning
fails with what is wrong with the facts. -/
theorem CoverageReport.compare_firstObstacle (source target : Project)
    (s : ComparisonSettings Float) {α : Type} [Scalar α] (planning : PlanningSettings α) :
    (∀ fault, compare source target s = .error fault ↔
        Obstacle source target s (AuditError.ofCompareFault fault).kind fault) ∧
      ((∃ r, compare source target s = .ok r ∧ r.categories ≠ []) ↔
        source.IsUsable ∧ target.IsUsable ∧ s.thresholds.AreInRange ∧ ¬ source.IsBare) ∧
      (∀ fault, Plan.derive source planning = .error fault ↔ source.HasFault fault) ∧
      ((∃ plan, Plan.derive source planning = .ok plan) ↔ source.IsUsable) := by
  refine ⟨fun fault => ⟨obstacle_of_compare_eq, Obstacle.compare_eq⟩, ?_,
    fun fault => Plan.derive_eq_error_iff, ?_⟩
  · rw [← exists_compare_eq_ok_iff]
    constructor
    · rintro ⟨r, hr, -⟩
      exact ⟨r, hr⟩
    · rintro ⟨r, hr⟩
      exact ⟨r, hr, categories_ne_nil hr⟩
  · rw [← Project.fault?_eq_none_iff]
    constructor
    · rintro ⟨plan, hplan⟩
      exact Plan.fault?_of_derive_eq_ok hplan
    · intro h
      exact ⟨_, Plan.derive_eq_ok h⟩

end MigrationAudit
