import MigrationAudit.Proofs.Coverage.Correspondence

/-!
# Larger targets

A target project that has at least the routines and classes of another one covers at least as much
of any source. Each step from the targets to the verdict keeps this order: the best candidate, the
links, the coverage of a category, the mean, the rules and what follows from all of them. Percentages
are reckoned from counts, so floating-point numbers keep the order as rational numbers do.
-/

namespace MigrationAudit

open Scalar (IsCounted)

/-- Whether every routine and every class of a project also occurs in another one, in a unit of the
same name. There a class may have more members, and a routine another body. -/
structure Project.IsPartOf (p q : Project) : Prop where
  routines : ∀ u r, (u, r) ∈ p.allRoutines → ∃ v r', (v, r') ∈ q.allRoutines ∧
    v.name = u.name ∧ r'.name = r.name ∧ r'.arity = r.arity ∧ r'.returnType = r.returnType
  classes : ∀ u c, (u, c) ∈ p.allClasses → ∃ v c', (v, c') ∈ q.allClasses ∧
    v.name = u.name ∧ c'.name = c.name ∧ c'.stereotype = c.stereotype

theorem Project.isPartOf_of_subset {p q : Project} (h : p.units ⊆ q.units) : p.IsPartOf q := by
  constructor
  · intro u r hr
    obtain ⟨w, hw, hmem⟩ := List.mem_flatMap.mp hr
    exact ⟨u, r, List.mem_flatMap.mpr ⟨w, h hw, hmem⟩, rfl, rfl, rfl, rfl⟩
  · intro u c hc
    obtain ⟨w, hw, hmem⟩ := List.mem_flatMap.mp hc
    exact ⟨u, c, List.mem_flatMap.mpr ⟨w, h hw, hmem⟩, rfl, rfl, rfl⟩

/-! ## Links -/

namespace ComparisonSettings

section Entities

variable {α : Type} (s : ComparisonSettings α) {p q : Project}

theorem routineEntities_subset (h : p.IsPartOf q) : s.routineEntities p ⊆ s.routineEntities q := by
  intro e he
  obtain ⟨⟨u, r⟩, hmem, rfl⟩ := List.mem_map.mp he
  obtain ⟨v, r', hmem', hunit, hname, harity, hreturn⟩ := h.routines u r hmem
  refine List.mem_map.mpr ⟨(v, r'), hmem', ?_⟩
  simp only [routineEntity, hunit, hname, harity, hreturn]

theorem classEntities_subset (h : p.IsPartOf q) (wanted : Option Stereotype → Bool) :
    s.classEntities p (wanted ·.stereotype) ⊆ s.classEntities q (wanted ·.stereotype) := by
  intro e he
  obtain ⟨⟨u, c⟩, hmem, rfl⟩ := List.mem_map.mp he
  obtain ⟨hclass, hwanted⟩ := List.mem_filter.mp hmem
  obtain ⟨v, c', hmem', hunit, hname, hstereotype⟩ := h.classes u c hclass
  refine List.mem_map.mpr ⟨(v, c'), List.mem_filter.mpr ⟨hmem', ?_⟩, ?_⟩
  · simpa only [hstereotype] using hwanted
  · simp only [classEntity, hunit, hname]

theorem targetEntities_subset (h : p.IsPartOf q) (c : Category) :
    s.targetEntities p c ⊆ s.targetEntities q c := by
  intro e he
  unfold targetEntities at he ⊢
  rw [mem_sortBy] at he ⊢
  cases c
  case routines => exact s.routineEntities_subset h he
  case classes => exact s.classEntities_subset h (fun _ => true) he
  case forms => exact s.classEntities_subset h (· == some .controller) he
  case dataModules => exact s.classEntities_subset h (· == some .service) he

end Entities

section Links

variable {α : Type} [Scalar α] [MonotoneScalar α] {s s' : ComparisonSettings α}
  {targets targets' : List Entity} {source : Entity}

/-- An entity that is linked is also linked where its best candidate has no less confidence and no
more is asked for. -/
theorem isLeft_link_of_best
    (hmin : ∀ a, s.thresholds.minConfidence ≤ a → s'.thresholds.minConfidence ≤ a)
    (hbest : ∀ best, bestCandidate? s source targets = some best →
      ∃ best', bestCandidate? s' source targets' = some best' ∧ best.confidence ≤ best'.confidence)
    (category : Category) (hlink : (s.link category targets source).isLeft) :
    (s'.link category targets' source).isLeft := by
  obtain ⟨e, he⟩ := Sum.isLeft_iff.mp hlink
  obtain ⟨best, hsome, hconfidence, _⟩ := link_eq_inl_iff.mp he
  obtain ⟨best', hsome', hle⟩ := hbest best hsome
  have hreaches := hmin _ (OrderedScalar.le_trans hconfidence hle)
  exact Sum.isLeft_iff.mpr ⟨_, link_eq_inl_iff.mpr ⟨best', hsome', hreaches, rfl⟩⟩

/-- An entity that is linked to one of some targets is linked when there are more. -/
theorem isLeft_link_mono (h : targets ⊆ targets') (category : Category)
    (hlink : (s.link category targets source).isLeft) :
    (s.link category targets' source).isLeft := by
  refine isLeft_link_of_best (fun _ => id) ?_ category hlink
  intro best hbest
  obtain ⟨t, ht, hscore⟩ := exists_of_bestCandidate? hbest
  exact exists_bestCandidate? (h ht) hscore

end Links

end ComparisonSettings

/-! ## Coverage -/

namespace CategoryAudit

variable {α : Type} [Scalar α]

theorem matched_eq_countP (s : ComparisonSettings α) (source target : Project) (c : Category) :
    (of s source target c).coverage.matched =
      (s.sourceEntities source c).countP fun e =>
        (s.link c (s.targetEntities target c) e).isLeft := by
  have hleft : ∀ x : Edge α ⊕ Gap α, x.getLeft?.isSome = x.isLeft := fun x => by cases x <;> rfl
  simp only [of, List.length_filterMap_eq_countP, List.countP_map, Function.comp_def, hleft]

theorem isCounted_percentage (matched : ℕ) {total : ℕ} (h : 0 < total) :
    IsCounted (Scalar.min (Scalar.ratio matched total * Scalar.ofNat 100) (Scalar.ofNat 100) : α) :=
  ((IsCounted.ratio matched h).mul_ofNat (by decide)).min (.ofNat 100)

theorem isCounted_coverageOf (matched : ℕ) {total : ℕ} (h : 0 < total) :
    IsCounted (coverageOf matched total : α) :=
  (isCounted_percentage matched h).roundTo (by decide)

variable (s : ComparisonSettings α) (source : Project) {target larger : Project} {c : Category}

theorem isCounted_coverage (hc : c ∈ s.present source) (target : Project) :
    IsCounted (of s source target c).coverage.coverage :=
  isCounted_coverageOf _ (s.length_sourceEntities_pos source hc)

variable [MonotoneScalar α]

theorem coverageOf_mono {matched matched' total : ℕ} (h : matched ≤ matched')
    (htotal : 0 < total) : (coverageOf matched total : α) ≤ coverageOf matched' total := by
  have hratio : (Scalar.ratio matched total : α) ≤ Scalar.ratio matched' total :=
    MonotoneScalar.div_le_div (.ofNat _) (.ofNat _) htotal (MonotoneScalar.ofNat_le h)
  have hpercent : (Scalar.ratio matched total * Scalar.ofNat 100 : α) ≤
      Scalar.ratio matched' total * Scalar.ofNat 100 :=
    (MonotoneScalar.mul_le_mul (.ratio _ htotal) (.ratio _ htotal) (by decide) hratio).1
  exact Scalar.roundTo_le_roundTo (by decide) (isCounted_percentage _ htotal)
    (isCounted_percentage _ htotal) (Scalar.min_le_min_left (.ofNat 100) hpercent)

theorem matched_mono (h : target.IsPartOf larger) :
    (of s source target c).coverage.matched ≤ (of s source larger c).coverage.matched := by
  rw [matched_eq_countP, matched_eq_countP]
  apply List.countP_mono_left
  intro e _ hlink
  exact ComparisonSettings.isLeft_link_mono (s.targetEntities_subset h c) c hlink

theorem coverage_mono (h : target.IsPartOf larger) (hc : c ∈ s.present source) :
    (of s source target c).coverage.coverage ≤ (of s source larger c).coverage.coverage :=
  coverageOf_mono (matched_mono s source h) (s.length_sourceEntities_pos source hc)

end CategoryAudit

/-! ## Rules -/

namespace Verdict

def severity : Verdict → Nat
  | .pass => 0
  | .warn => 1
  | .fail => 2

/-- An outcome stays, or turns into a pass. -/
def Eases (v v' : Verdict) : Prop := v' = v ∨ v' = .pass

theorem eases_ite {p p' : Prop} [Decidable p] [Decidable p'] (h : p → p') (otherwise : Verdict) :
    Eases (if p then .pass else otherwise) (if p' then .pass else otherwise) := by
  by_cases hp' : p'
  · exact Or.inr (if_pos hp')
  · left
    rw [if_neg hp', if_neg fun hp => hp' (h hp)]

theorem Eases.pass {v v' : Verdict} (h : v.Eases v') (hv : v = .pass) : v' = .pass := by
  rcases h with rfl | rfl
  · exact hv
  · rfl

theorem count_of_eases {vs vs' : List Verdict} (h : List.Forall₂ Eases vs vs') :
    vs'.count .fail ≤ vs.count .fail ∧ vs'.count .warn ≤ vs.count .warn ∧
      vs.count .pass ≤ vs'.count .pass := by
  induction h with
  | nil => simp
  | @cons v v' vs vs' heases _ ih =>
      obtain ⟨hfail, hwarn, hpass⟩ := ih
      simp only [List.count_cons]
      rcases heases with rfl | rfl
      · omega
      · -- one outcome more passes, so no count of the others grows
        cases v <;> simp <;> omega

/-- The outcome of all rules gets no worse when rules stay as they are or turn into passes. -/
theorem severity_aggregate_le {vs vs' : List Verdict} (h : List.Forall₂ Eases vs vs') :
    (aggregate vs').severity ≤ (aggregate vs).severity := by
  obtain ⟨hfail, hwarn, hpass⟩ := count_of_eases h
  unfold aggregate
  split_ifs <;> simp only [severity] <;> omega

end Verdict

theorem TargetSummary.countP_pos {p q : Project} (h : p.IsPartOf q) {stereotype : Stereotype}
    (hcount : 0 < (p.allClasses.map (·.2)).countP (·.stereotype == some stereotype)) :
    0 < (q.allClasses.map (·.2)).countP (·.stereotype == some stereotype) := by
  obtain ⟨c, hc, hwanted⟩ := List.countP_pos_iff.mp hcount
  obtain ⟨⟨u, c⟩, hmem, rfl⟩ := List.mem_map.mp hc
  obtain ⟨v, c', hmem', _, _, hstereotype⟩ := h.classes u c hmem
  refine List.countP_pos_iff.mpr ⟨c', List.mem_map.mpr ⟨(v, c'), hmem', rfl⟩, ?_⟩
  simpa only [hstereotype] using hwanted

section Rules

variable {α : Type} [Scalar α]

/-- The same rule with an outcome that stays, or turns into a pass. -/
def Finding.Eases (f f' : Finding α) : Prop := f.rule = f'.rule ∧ f.verdict.Eases f'.verdict

theorem validate_eases [OrderedScalar α] (source : Project) {target larger : Project}
    (h : target.IsPartOf larger) {overall overall' : α} (hoverall : overall ≤ overall')
    (s : ComparisonSettings α) :
    List.Forall₂ Finding.Eases
      (validate source (.ofProject target) overall s)
      (validate source (.ofProject larger) overall' s) := by
  have hcoverage : Finding.Eases (.coverage overall s.thresholds.coverageThreshold)
      (.coverage overall' s.thresholds.coverageThreshold) :=
    ⟨rfl, Verdict.eases_ite (fun hle => OrderedScalar.le_trans hle hoverall) .warn⟩
  have hcontrollers : Finding.Eases
      (.controllers (TargetSummary.ofProject target).controllers : Finding α)
      (.controllers (TargetSummary.ofProject larger).controllers) :=
    ⟨rfl, Verdict.eases_ite (TargetSummary.countP_pos h) .fail⟩
  have hpersistence : Finding.Eases
      (.persistence (TargetSummary.ofProject target).entities
        (TargetSummary.ofProject target).repositories : Finding α)
      (.persistence (TargetSummary.ofProject larger).entities
        (TargetSummary.ofProject larger).repositories) :=
    ⟨rfl, Verdict.eases_ite
      (And.imp (TargetSummary.countP_pos h) (TargetSummary.countP_pos h)) .warn⟩
  unfold validate
  -- which rules apply is decided by the source alone
  cases source.hasForms <;> cases source.hasDataAccess <;>
    simp [hcoverage, hcontrollers, hpersistence]

end Rules

/-! ## Reports -/

namespace CoverageReport

variable {α : Type} [Scalar α]

/-- What one report says is no worse in another one. -/
structure NoWorse (r r' : CoverageReport α) : Prop where
  matched : List.Forall₂ (fun c c' => c.category = c'.category ∧ c.sourceCount = c'.sourceCount ∧
    c.matched ≤ c'.matched) r.categories r'.categories
  overall : r.overallCoverage ≤ r'.overallCoverage
  findings : List.Forall₂ (fun f f' => f.rule = f'.rule ∧ (f.verdict = .pass → f'.verdict = .pass))
    r.findings r'.findings
  verdict : r'.verdict.severity ≤ r.verdict.severity

section Growth

variable [MonotoneScalar α] {source target larger : Project} {s : ComparisonSettings α}

theorem overallOf_mono {categories categories' : List (CategoryCoverage α)}
    (h : List.Forall₂ (fun c c' => c.coverage ≤ c'.coverage) categories categories')
    (hne : categories ≠ []) (hcounted : ∀ a ∈ categories.map (·.coverage), IsCounted a)
    (hcounted' : ∀ a ∈ categories'.map (·.coverage), IsCounted a) :
    overallOf categories ≤ overallOf categories' := by
  have hpositive : 0 < categories'.length := h.length_eq ▸ List.length_pos_of_ne_nil hne
  have hpointwise : List.Forall₂ (· ≤ ·) (categories.map (·.coverage))
      (categories'.map (·.coverage)) := by
    rw [List.forall₂_map_left_iff, List.forall₂_map_right_iff]
    exact h
  have hsum := Scalar.isCounted_sum hcounted
  have hsum' := Scalar.isCounted_sum hcounted'
  have hmean := MonotoneScalar.div_le_div hsum hsum' hpositive
    (Scalar.sum_le_sum hpointwise hcounted hcounted')
  unfold overallOf
  rw [h.length_eq]
  exact Scalar.roundTo_le_roundTo (by decide) (hsum.div_ofNat hpositive)
    (hsum'.div_ofNat hpositive) hmean

theorem overallCoverage_mono (h : target.IsPartOf larger) (hpresent : s.present source ≠ []) :
    (ofProjects source target s).overallCoverage ≤
      (ofProjects source larger s).overallCoverage := by
  have hcounted (p : Project) : ∀ a ∈ (((s.present source).map (CategoryAudit.of s source p)).map
      (·.coverage)).map (·.coverage), IsCounted a := by
    simp only [List.map_map, List.mem_map, Function.comp_apply]
    rintro _ ⟨c, hc, rfl⟩
    exact CategoryAudit.isCounted_coverage s source hc p
  refine overallOf_mono ?_ (by simpa using hpresent) (hcounted target) (hcounted larger)
  rw [List.map_map, List.map_map, List.forall₂_map_left_iff, List.forall₂_map_right_iff,
    List.forall₂_same]
  intro c hc
  exact CategoryAudit.coverage_mono s source h hc

theorem ofProjects_noWorse (h : target.IsPartOf larger) (hpresent : s.present source ≠ []) :
    (ofProjects source target s).NoWorse (ofProjects source larger s) := by
  have hoverall := overallCoverage_mono h hpresent
  have hfindings := validate_eases source h hoverall s
  constructor
  case matched =>
    unfold ofProjects ofAudits
    rw [List.map_map, List.map_map, List.forall₂_map_left_iff, List.forall₂_map_right_iff,
      List.forall₂_same]
    intro c _
    exact ⟨rfl, rfl, CategoryAudit.matched_mono s source h⟩
  case overall => exact hoverall
  case findings => exact hfindings.imp fun f f' hf => ⟨hf.1, hf.2.pass⟩
  case verdict =>
    apply Verdict.severity_aggregate_le
    rw [List.forall₂_map_left_iff, List.forall₂_map_right_iff]
    exact hfindings.imp fun f f' hf => hf.2

theorem compare_noWorse {r : CoverageReport α} (h : compare source target s = .ok r)
    (hpart : target.IsPartOf larger) (hlarger : larger.fault? = none) :
    ∃ r', compare source larger s = .ok r' ∧ r.NoWorse r' := by
  obtain ⟨hsource, _, hthresholds, hpresent, rfl⟩ := compare_eq_ok_iff.mp h
  refine ⟨ofProjects source larger s, ?_, ofProjects_noWorse hpart hpresent⟩
  exact compare_eq_ok_iff.mpr ⟨hsource, hlarger, hthresholds, hpresent, rfl⟩

end Growth

/-- A unit without any role in the form's migration. -/
def mailService : SourceUnit :=
  { name := "shop.MailService"
    path := "MailService.java"
    language := .java
    classes := [{ name := "MailService", stereotype := some .service }] }

theorem customerForm_noWorse_mailService :
    ∃ r, compare (.ofUnits [customerForm]) (.ofUnits [mailService])
        (.standard : ComparisonSettings Rat) = .ok r ∧
      (Project.ofUnits [mailService]).IsPartOf (.ofUnits [customerController, mailService]) ∧
      (Project.ofUnits [customerController, mailService]).fault? = none ∧
      ∃ r', compare (.ofUnits [customerForm]) (.ofUnits [customerController, mailService])
          .standard = .ok r' ∧ r.NoWorse r' := by
  have hpart : (Project.ofUnits [mailService]).IsPartOf
      (.ofUnits [customerController, mailService]) :=
    Project.isPartOf_of_subset (List.subset_cons_self _ _)
  exact ⟨_, compare_customerForm rfl, hpart, rfl,
    compare_noWorse (compare_customerForm rfl) hpart rfl⟩

end CoverageReport

end MigrationAudit
