import MigrationAudit.Proofs.Coverage.Correspondence

/-!
# Self-coverage

A project compared with itself covers all its routines and classes. Each of them is among its own
targets, under its own name and with its own parameters; whatever else is scored, the best candidate
has no less confidence than that. The scores are the floating-point numbers of a run.
-/

namespace MigrationAudit

/-! ## Confidences -/

def Entity.ownSignals (e : Entity) : List (Signal Float) :=
  .exactName :: (e.arity.map fun _ => .paramCount).toList ++
    (e.returnType.map fun _ => .returnType).toList

theorem score?_self (s : ComparisonSettings Float) (e : Entity) :
    score? s e e = some
      { target := e
        confidence := confidenceOf (Scalar.sum (e.ownSignals.map Signal.points))
        signals := e.ownSignals
        notes := discrepancies s e e } := by
  have hname : Signal.ofNames? s.thresholds.similarityFloor e e = some .exactName := if_pos rfl
  have harity : Signal.ofArities? e e =
      e.arity.map fun _ => (.paramCount : Signal Float) := by
    unfold Signal.ofArities?
    cases e.arity <;> simp
  have hreturn : Signal.ofReturnTypes? s e e = e.returnType.map fun _ => .returnType := by
    unfold Signal.ofReturnTypes?
    cases e.returnType <;> simp
  rw [score?, hname, harity, hreturn]
  rfl

/-- The name counts 50 points, the parameters 30 and the return type 20. -/
theorem confidenceOf_ownSignals (e : Entity) :
    0.5 ≤ confidenceOf (Scalar.sum (e.ownSignals.map Signal.points)) ∧
      (e.arity ≠ none → 0.8 ≤ confidenceOf (Scalar.sum (e.ownSignals.map Signal.points))) := by
  unfold Entity.ownSignals
  cases e.arity with
  | none =>
      constructor
      · cases e.returnType <;> simp only [Option.map, Option.toList] <;> decide +kernel
      · intro h
        exact absurd rfl h
  | some n =>
      constructor
      · cases e.returnType <;> simp only [Option.map, Option.toList] <;> decide +kernel
      · intro _
        cases e.returnType <;> simp only [Option.map, Option.toList] <;> decide +kernel

/-! ## Links -/

theorem ComparisonSettings.exists_link_self {s : ComparisonSettings Float}
    (hmin : s.thresholds.minConfidence ≤ 0.5) (category : Category) {targets : List Entity}
    {e : Entity} (he : e ∈ targets) :
    ∃ edge, s.link category targets e = .inl edge ∧
      (e.arity ≠ none → 0.8 ≤ edge.candidate.confidence) := by
  obtain ⟨hhalf, harity⟩ := confidenceOf_ownSignals e
  -- a homonym may win, but never with less confidence than the entity has for itself
  obtain ⟨best, hbest, hle⟩ := exists_bestCandidate? he (score?_self s e)
  refine ⟨⟨category, e, best⟩, link_eq_inl_iff.mpr ⟨best, hbest, ?_, rfl⟩, ?_⟩
  · exact OrderedScalar.le_trans hmin (OrderedScalar.le_trans hhalf hle)
  · intro h
    exact OrderedScalar.le_trans (harity h) hle

theorem coverageOf_self {n : ℕ} (h : 0 < n) : (coverageOf n n : Float) = 100 := by
  unfold coverageOf
  rw [Scalar.ratio_self h]
  decide +kernel

namespace CategoryAudit

variable {p : Project} {s : ComparisonSettings Float} {c : Category}

theorem gaps_self (hmin : s.thresholds.minConfidence ≤ 0.5)
    (hown : s.sourceEntities p c = s.targetEntities p c) : (of s p p c).gaps = [] := by
  apply List.eq_nil_iff_forall_not_mem.mpr
  intro g hg
  obtain ⟨e, he, hgap⟩ := mem_gaps.mp hg
  obtain ⟨edge, hlink, _⟩ := ComparisonSettings.exists_link_self hmin c (hown ▸ he)
  rw [hlink] at hgap
  exact Sum.inl_ne_inr hgap

theorem coverage_self (hmin : s.thresholds.minConfidence ≤ 0.5)
    (hown : s.sourceEntities p c = s.targetEntities p c) (hne : s.sourceEntities p c ≠ []) :
    (of s p p c).coverage.coverage = 100 := by
  have hmatched : (of s p p c).coverage.matched = (s.sourceEntities p c).length := by
    have hcount := matched_add_length_gaps s p p c
    rwa [gaps_self hmin hown, List.length_nil, Nat.add_zero] at hcount
  change coverageOf (of s p p c).coverage.matched (s.sourceEntities p c).length = _
  rw [hmatched]
  exact coverageOf_self (List.length_pos_of_ne_nil hne)

theorem confidence_routines (hmin : s.thresholds.minConfidence ≤ 0.5) {e : Edge Float}
    (he : e ∈ (of s p p .routines).edges) : 0.8 ≤ e.candidate.confidence := by
  obtain ⟨entity, hentity, hedge⟩ := mem_edges.mp he
  have harity : entity.arity ≠ none := by
    obtain ⟨_, _, rfl⟩ := List.mem_map.mp ((sortBy_perm _ _).mem_iff.mp hentity)
    exact Option.some_ne_none _
  obtain ⟨edge, hlink, hconfidence⟩ := ComparisonSettings.exists_link_self hmin .routines hentity
  obtain rfl := Sum.inl.inj (hlink.symm.trans hedge)
  exact hconfidence harity

end CategoryAudit

/-! ## Reports -/

namespace CoverageReport

/-- A report says that all routines and classes of a project are covered, each by an edge. -/
structure CoversAll (r : CoverageReport Float) (p : Project) : Prop where
  routines_iff : (∃ cov ∈ r.categories, cov.category = .routines) ↔ p.allRoutines ≠ []
  classes_iff : (∃ cov ∈ r.categories, cov.category = .classes) ↔ p.allClasses ≠ []
  coverage_eq : ∀ cov ∈ r.categories, cov.category = .routines ∨ cov.category = .classes →
    cov.coverage = 100
  edges_perm : ∀ c, c = .routines ∨ c = .classes →
    ((r.edgesIn c).map (·.source.label)).Perm (p.sourceLabels c)
  gapsIn_eq : ∀ c, c = .routines ∨ c = .classes → r.gapsIn c = []
  confidence_le : ∀ e ∈ r.edgesIn .routines, 0.8 ≤ e.candidate.confidence

theorem compare_self {p : Project} {s : ComparisonSettings Float} (hfacts : p.fault? = none)
    (hsome : p.allRoutines ≠ [] ∨ p.allClasses ≠ []) (hthresholds : s.thresholds.fault? = none)
    (hmin : s.thresholds.minConfidence ≤ 0.5) :
    ∃ r, compare p p s = .ok r ∧ r.CoversAll p := by
  -- of these two categories a project has the same entities as a source and as a target
  have hown : ∀ c, c = .routines ∨ c = .classes → s.sourceEntities p c = s.targetEntities p c := by
    rintro c (rfl | rfl) <;> rfl
  have hroutines : .routines ∈ s.present p ↔ p.allRoutines ≠ [] := by
    simp [ComparisonSettings.present_eq, Category.mem_all, Project.sourceLabels,
      Project.routineLabels]
  have hclasses : .classes ∈ s.present p ↔ p.allClasses ≠ [] := by
    simp [ComparisonSettings.present_eq, Category.mem_all, Project.sourceLabels,
      Project.classLabels]
  have hpresent : s.present p ≠ [] := by
    rcases hsome with h | h
    · exact List.ne_nil_of_mem (hroutines.mpr h)
    · exact List.ne_nil_of_mem (hclasses.mpr h)
  refine ⟨_, compare_eq_ok_iff.mpr ⟨hfacts, hfacts, hthresholds, hpresent, rfl⟩, ?_⟩
  constructor
  case routines_iff =>
    rw [← List.mem_map, map_category_ofProjects]
    exact hroutines
  case classes_iff =>
    rw [← List.mem_map, map_category_ofProjects]
    exact hclasses
  case coverage_eq =>
    intro cov hcov hcategory
    rw [categories_ofProjects] at hcov
    obtain ⟨c, hc, rfl⟩ := List.mem_map.mp hcov
    exact CategoryAudit.coverage_self hmin (hown c hcategory) ((s.mem_present p).mp hc)
  case edges_perm =>
    intro c hc
    have hperm := CategoryAudit.labels_perm s p p c
    rw [CategoryAudit.gaps_self hmin (hown c hc), List.map_nil, List.append_nil] at hperm
    rwa [edgesIn_ofProjects]
  case gapsIn_eq =>
    intro c hc
    rw [gapsIn_ofProjects]
    exact CategoryAudit.gaps_self hmin (hown c hc)
  case confidence_le =>
    intro e he
    rw [edgesIn_ofProjects] at he
    exact CategoryAudit.confidence_routines hmin he

theorem customerForm_coversAll :
    (Project.ofUnits [customerForm]).fault? = none ∧
      (Project.ofUnits [customerForm]).allRoutines ≠ [] ∧
      (Thresholds.standard : Thresholds Float).fault? = none ∧
      (Thresholds.standard : Thresholds Float).minConfidence ≤ 0.5 ∧
      ∃ r, compare (.ofUnits [customerForm]) (.ofUnits [customerForm])
          (.standard : ComparisonSettings Float) = .ok r ∧
        r.CoversAll (.ofUnits [customerForm]) := by
  have hroutines : (Project.ofUnits [customerForm]).allRoutines ≠ [] := List.cons_ne_nil _ _
  have hthresholds : (Thresholds.standard : Thresholds Float).fault? = none := by decide +kernel
  have hmin : (Thresholds.standard : Thresholds Float).minConfidence ≤ 0.5 := by decide +kernel
  exact ⟨rfl, hroutines, hthresholds, hmin, compare_self rfl (Or.inl hroutines) hthresholds hmin⟩

end CoverageReport

end MigrationAudit
