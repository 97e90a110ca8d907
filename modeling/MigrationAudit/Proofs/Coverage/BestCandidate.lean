import MigrationAudit.Proofs.Coverage.Confidence

/-!
# The best candidate among some targets

Candidates are ordered by their confidence, then by name and unit of their targets. The running best
of a search comes before all targets that were seen, and its confidence, name and unit do not depend
on the order in which they were seen.
-/

namespace MigrationAudit

open Scalar (IsCounted)

/-! ## The order of entities -/

namespace Entity

variable {d e : Entity}

instance : Std.TransCmp Entity.compare := by
  unfold Entity.compare
  infer_instance

theorem isLE_compare_iff :
    (d.compare e).isLE ↔ d.name < e.name ∨ d.name = e.name ∧ d.unit ≤ e.unit := by
  unfold Entity.compare compareLex compareOn
  rcases lt_trichotomy d.name e.name with hlt | heq | hgt
  · simp [compare_lt_iff_lt.mpr hlt, hlt]
  · have hunit : (Ord.compare d.unit e.unit).isLE ↔ d.unit ≤ e.unit := by
      rw [Ordering.isLE_iff_ne_gt]
      exact compare_le_iff_le
    simp [heq, hunit]
  · rw [compare_gt_iff_gt.mpr hgt]
    constructor
    · simp
    · rintro (hlt | ⟨heq, _⟩)
      · exact absurd hlt hgt.not_gt
      · exact absurd heq hgt.ne'

theorem eq_of_isLE_compare (h : (d.compare e).isLE) (h' : (e.compare d).isLE) :
    d.name = e.name ∧ d.unit = e.unit := by
  rw [isLE_compare_iff] at h h'
  rcases h with hlt | ⟨hname, hunit⟩
  · rcases h' with hlt' | ⟨hname, _⟩
    · exact absurd hlt' hlt.not_gt
    · exact absurd hname hlt.ne'
  · rcases h' with hlt' | ⟨_, hunit'⟩
    · exact absurd hname hlt'.ne'
    · exact ⟨hname, le_antisymm hunit hunit'⟩

end Entity

/-! ## The order of candidates -/

namespace Candidate

variable {α : Type} [Scalar α] {b c d : Candidate α}

/-- What candidates are told apart by. -/
def rank (c : Candidate α) : α × String × String := (c.confidence, c.target.name, c.target.unit)

/-- A candidate with no less confidence than another one and, where it has no more, with a target
that does not come after the other one. -/
structure Dominates (c d : Candidate α) : Prop where
  confidence_le : d.confidence ≤ c.confidence
  isLE : c.confidence ≤ d.confidence → (c.target.compare d.target).isLE

theorem Dominates.refl (hc : Scalar.IsNumber c.confidence) : c.Dominates c :=
  ⟨hc, fun _ => Std.ReflCmp.isLE_rfl⟩

theorem better_eq_or (c d : Candidate α) : c.better d = c ∨ c.better d = d := by
  unfold better
  split
  · exact Or.inr rfl
  · exact Or.inl rfl

theorem foldl_better_mem (c : Candidate α) (l : List (Candidate α)) :
    l.foldl better c ∈ c :: l := by
  induction l generalizing c with
  | nil => simp
  | cons d l ih =>
      rw [List.foldl_cons]
      rcases List.mem_cons.mp (ih (c.better d)) with hhead | htail
      · rw [hhead]
        rcases c.better_eq_or d with heq | heq <;> simp [heq]
      · exact List.mem_cons_of_mem _ (List.mem_cons_of_mem _ htail)

theorem precedes_iff : d.precedes c = true ↔ c.confidence < d.confidence ∨
    ¬ d.confidence < c.confidence ∧ d.target.compare c.target = .lt := by
  simp [precedes]

section Better

variable [OrderedScalar α]

theorem Dominates.trans (h : b.Dominates c) (h' : c.Dominates d) : b.Dominates d where
  confidence_le := OrderedScalar.le_trans h'.confidence_le h.confidence_le
  isLE := by
    intro hle
    have hfirst := h.isLE (OrderedScalar.le_trans hle h'.confidence_le)
    have hsecond := h'.isLE (OrderedScalar.le_trans h.confidence_le hle)
    exact Std.TransCmp.isLE_trans hfirst hsecond

variable (hc : Scalar.IsNumber c.confidence) (hd : Scalar.IsNumber d.confidence)
include hc hd

theorem dominates_of_precedes (h : d.precedes c = true) : d.Dominates c := by
  rcases precedes_iff.mp h with hlt | ⟨hnot, hbefore⟩
  · refine ⟨OrderedScalar.le_of_lt hlt, fun hle => ?_⟩
    exact absurd hlt (OrderedScalar.not_lt_of_le hle)
  · refine ⟨OrderedScalar.le_of_not_lt hd hc hnot, fun _ => ?_⟩
    rw [hbefore]
    rfl

theorem dominates_of_not_precedes (h : ¬ d.precedes c = true) : c.Dominates d := by
  obtain ⟨hnot, hafter⟩ := not_or.mp (mt precedes_iff.mpr h)
  refine ⟨OrderedScalar.le_of_not_lt hc hd hnot, fun hle => ?_⟩
  rw [Ordering.isLE_iff_ne_gt, Std.OrientedCmp.gt_iff_lt]
  exact fun hbefore => hafter ⟨OrderedScalar.not_lt_of_le hle, hbefore⟩

theorem better_dominates : (c.better d).Dominates c ∧ (c.better d).Dominates d := by
  unfold better
  split
  · rename_i hprecedes
    exact ⟨dominates_of_precedes hc hd hprecedes, .refl hd⟩
  · rename_i hprecedes
    exact ⟨.refl hc, dominates_of_not_precedes hc hd hprecedes⟩

end Better

theorem foldl_better_dominates [OrderedScalar α] {l : List (Candidate α)}
    (hnumber : ∀ d ∈ c :: l, Scalar.IsNumber d.confidence) :
    ∀ d ∈ c :: l, (l.foldl better c).Dominates d := by
  induction l generalizing c with
  | nil =>
      intro d hd
      obtain rfl := List.mem_singleton.mp hd
      exact .refl (hnumber d hd)
  | cons e l ih =>
      obtain ⟨hc, he, hl⟩ : Scalar.IsNumber c.confidence ∧ Scalar.IsNumber e.confidence ∧
          ∀ d ∈ l, Scalar.IsNumber d.confidence := by
        simpa using hnumber
      obtain ⟨hcbetter, hebetter⟩ := better_dominates hc he
      have hbetter : Scalar.IsNumber (c.better e).confidence := by
        rcases c.better_eq_or e with heq | heq <;> rw [heq] <;> assumption
      have hrest := ih (List.forall_mem_cons.mpr ⟨hbetter, hl⟩)
      have hhead := hrest (c.better e) List.mem_cons_self
      intro d hd
      rw [List.foldl_cons]
      rcases List.mem_cons.mp hd with rfl | hd
      · exact hhead.trans hcbetter
      · rcases List.mem_cons.mp hd with rfl | hd
        · exact hhead.trans hebetter
        · exact hrest d (List.mem_cons_of_mem _ hd)

theorem Dominates.rank_eq [MonotoneScalar α] (hc : IsCounted c.confidence)
    (hd : IsCounted d.confidence) (h : c.Dominates d) (h' : d.Dominates c) : c.rank = d.rank := by
  have hconfidence : c.confidence = d.confidence :=
    MonotoneScalar.le_antisymm hc hd h'.confidence_le h.confidence_le
  obtain ⟨hname, hunit⟩ :=
    Entity.eq_of_isLE_compare (h.isLE h'.confidence_le) (h'.isLE h.confidence_le)
  unfold rank
  rw [hconfidence, hname, hunit]

end Candidate

/-! ## Search -/

section Search

variable {α : Type} [Scalar α] {s : ComparisonSettings α} {source t : Entity}
  {targets targets' : List Entity} {c d : Candidate α}

theorem target_of_score? (h : score? s source t = some c) : c.target = t := by
  obtain ⟨name, _, rfl⟩ := Option.map_eq_some_iff.mp h
  rfl

theorem score?_eq_none_iff :
    score? s source t = none ↔
      Signal.ofNames? s.thresholds.similarityFloor source t = none :=
  Option.map_eq_none_iff

theorem bestCandidate?_eq_none_iff :
    bestCandidate? s source targets = none ↔ ∀ t ∈ targets, score? s source t = none := by
  unfold bestCandidate?
  rw [← List.filterMap_eq_nil_iff]
  cases targets.filterMap (score? s source) <;> simp

theorem exists_of_bestCandidate? (h : bestCandidate? s source targets = some c) :
    ∃ t ∈ targets, score? s source t = some c := by
  unfold bestCandidate? at h
  split at h
  · simp at h
  · rename_i d rest hscored
    have hmem : c ∈ targets.filterMap (score? s source) := by
      rw [hscored, ← Option.some.inj h]
      exact Candidate.foldl_better_mem d rest
    exact List.mem_filterMap.mp hmem

theorem score?_target_of_bestCandidate? (h : bestCandidate? s source targets = some c) :
    c.target ∈ targets ∧ score? s source c.target = some c := by
  obtain ⟨t, ht, hscore⟩ := exists_of_bestCandidate? h
  rw [target_of_score? hscore]
  exact ⟨ht, hscore⟩

variable [MonotoneScalar α]

theorem dominates_of_bestCandidate? (h : bestCandidate? s source targets = some c)
    (ht : t ∈ targets) (hscore : score? s source t = some d) : c.Dominates d := by
  have hnumber : ∀ e ∈ targets.filterMap (score? s source), Scalar.IsNumber e.confidence := by
    intro e he
    obtain ⟨_, _, hscored⟩ := List.mem_filterMap.mp he
    exact MonotoneScalar.le_refl (isCounted_confidence hscored)
  have hd : d ∈ targets.filterMap (score? s source) := List.mem_filterMap.mpr ⟨t, ht, hscore⟩
  unfold bestCandidate? at h
  split at h
  · simp at h
  · rename_i hscored
    rw [hscored] at hnumber hd
    rw [← Option.some.inj h]
    exact Candidate.foldl_better_dominates hnumber d hd

theorem exists_bestCandidate? (ht : t ∈ targets) (hscore : score? s source t = some d) :
    ∃ best, bestCandidate? s source targets = some best ∧ d.confidence ≤ best.confidence := by
  cases hbest : bestCandidate? s source targets with
  | none =>
      rw [bestCandidate?_eq_none_iff.mp hbest t ht] at hscore
      simp at hscore
  | some best => exact ⟨best, rfl, (dominates_of_bestCandidate? hbest ht hscore).confidence_le⟩

theorem rank_bestCandidate?_of_perm (h : targets.Perm targets') :
    (bestCandidate? s source targets).map Candidate.rank =
      (bestCandidate? s source targets').map Candidate.rank := by
  cases hbest : bestCandidate? s source targets with
  | none =>
      have hnone : bestCandidate? s source targets' = none := by
        rw [bestCandidate?_eq_none_iff] at hbest ⊢
        exact fun t ht => hbest t (h.mem_iff.mpr ht)
      rw [hnone]
  | some c =>
      obtain ⟨hc, hscore⟩ := score?_target_of_bestCandidate? hbest
      obtain ⟨c', hbest', _⟩ := exists_bestCandidate? (h.mem_iff.mp hc) hscore
      obtain ⟨hc', hscore'⟩ := score?_target_of_bestCandidate? hbest'
      -- the best of either search is among the targets of the other one
      have hfirst := dominates_of_bestCandidate? hbest (h.mem_iff.mpr hc') hscore'
      have hsecond := dominates_of_bestCandidate? hbest' (h.mem_iff.mp hc) hscore
      rw [hbest']
      exact congrArg some (hfirst.rank_eq (isCounted_confidence hscore)
        (isCounted_confidence hscore') hsecond)

end Search

/-- What a search for the counterpart of an entity finds. -/
structure SelectsBest {α : Type} [Scalar α] (s : ComparisonSettings α) (source : Entity)
    (targets : List Entity) : Prop where
  eq_none_iff : bestCandidate? s source targets = none ↔ ∀ t ∈ targets, score? s source t = none
  isScored : ∀ c, bestCandidate? s source targets = some c →
    c.target ∈ targets ∧ score? s source c.target = some c
  isBest : ∀ c, bestCandidate? s source targets = some c →
    ∀ t ∈ targets, ∀ d, score? s source t = some d →
      d.confidence ≤ c.confidence ∧ (d.confidence = c.confidence →
        c.target.name < t.name ∨ c.target.name = t.name ∧ c.target.unit ≤ t.unit)
  rank_of_perm : ∀ targets', targets.Perm targets' →
    (bestCandidate? s source targets).map Candidate.rank =
      (bestCandidate? s source targets').map Candidate.rank

theorem bestCandidate?_selectsBest (s : ComparisonSettings Float) (source : Entity)
    (targets : List Entity) : SelectsBest s source targets := by
  constructor
  case eq_none_iff => exact bestCandidate?_eq_none_iff
  case isScored => exact fun c h => score?_target_of_bestCandidate? h
  case isBest =>
    intro c h t ht d hscore
    obtain ⟨hle, hfirst⟩ := dominates_of_bestCandidate? h ht hscore
    refine ⟨hle, fun heq => ?_⟩
    rw [← Entity.isLE_compare_iff, ← target_of_score? hscore]
    apply hfirst
    rw [heq]
    exact MonotoneScalar.le_refl (isCounted_confidence (score?_target_of_bestCandidate? h).2)
  case rank_of_perm => exact fun targets' => rank_bestCandidate?_of_perm

end MigrationAudit
