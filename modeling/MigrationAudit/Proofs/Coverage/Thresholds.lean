import MigrationAudit.Proofs.Coverage.Growth
import MigrationAudit.Proofs.Coverage.SelfCoverage

/-!
# Stricter thresholds

The similarity floor decides which targets are scored at all, the least confidence which of the best
candidates are linked. A higher least confidence drops links and redirects none. A higher floor
takes targets away before the best one is chosen, so nothing is left with a better candidate.
-/

namespace MigrationAudit

section Scalar

variable {α : Type}

namespace ComparisonSettings

variable (s : ComparisonSettings α) (t : Thresholds α) (p : Project)

def withThresholds : ComparisonSettings α := { s with thresholds := t }

theorem sourceEntities_withThresholds (c : Category) :
    (s.withThresholds t).sourceEntities p c = s.sourceEntities p c :=
  rfl

theorem targetEntities_withThresholds (c : Category) :
    (s.withThresholds t).targetEntities p c = s.targetEntities p c :=
  rfl

theorem present_withThresholds : (s.withThresholds t).present p = s.present p :=
  rfl

end ComparisonSettings

/-- The gap that is left of an edge whose candidate does not suffice. -/
def Edge.toGap (e : Edge α) : Gap α := ⟨e.category, e.source, some e.candidate⟩

variable [Scalar α]

def Edge.reaches (minimum : α) (e : Edge α) : Bool := minimum ≤ e.candidate.confidence

/-- The gaps that are left of those edges that do not reach a least confidence. -/
def dropped (minimum : α) (edges : List (Edge α)) : List (Gap α) :=
  (edges.filter (!·.reaches minimum)).map Edge.toGap

/-- What a higher least confidence makes of a link. -/
def tighten (minimum : α) : Edge α ⊕ Gap α → Edge α ⊕ Gap α
  | .inl e => if e.reaches minimum then .inl e else .inr e.toGap
  | .inr g => .inr g

/-! ## Lists of links -/

section Lists

variable (minimum : α) (links : List (Edge α ⊕ Gap α))

theorem edges_tighten :
    (links.map (tighten minimum)).filterMap Sum.getLeft? =
      (links.filterMap Sum.getLeft?).filter (·.reaches minimum) := by
  induction links with
  | nil => rfl
  | cons link links ih =>
      cases link with
      | inl e => cases h : e.reaches minimum <;> simp [tighten, h, ih, List.filterMap_cons]
      | inr g => simp [tighten, ih, List.filterMap_cons]

/-- The dropped edges come in between the old gaps, and neither change their order. -/
theorem gaps_tighten :
    ((links.map (tighten minimum)).filterMap Sum.getRight?).Perm
        (links.filterMap Sum.getRight? ++ dropped minimum (links.filterMap Sum.getLeft?)) ∧
      (links.filterMap Sum.getRight?).Sublist
        ((links.map (tighten minimum)).filterMap Sum.getRight?) ∧
      (dropped minimum (links.filterMap Sum.getLeft?)).Sublist
        ((links.map (tighten minimum)).filterMap Sum.getRight?) := by
  unfold dropped
  induction links with
  | nil => simp
  | cons link links ih =>
      obtain ⟨hperm, hgaps, hdropped⟩ := ih
      cases link with
      | inl e =>
          cases h : e.reaches minimum with
          | true =>
              simp only [tighten, h, List.map_cons, List.filterMap_cons, Sum.getLeft?_inl,
                Sum.getRight?_inl, Bool.false_eq_true, if_true, List.filter_cons, Bool.not_true,
                if_false]
              exact ⟨hperm, hgaps, hdropped⟩
          | false =>
              simp only [tighten, h, List.map_cons, List.filterMap_cons, Sum.getLeft?_inl,
                Sum.getRight?_inl, Sum.getRight?_inr, Bool.false_eq_true, if_false,
                List.filter_cons, Bool.not_false, if_true]
              exact ⟨(hperm.cons _).trans List.perm_middle.symm, hgaps.cons _,
                hdropped.cons_cons _⟩
      | inr g =>
          simp only [tighten, List.map_cons, List.filterMap_cons, Sum.getLeft?_inr,
            Sum.getRight?_inr, List.cons_append]
          exact ⟨hperm.cons g, hgaps.cons_cons g, hdropped.cons g⟩

end Lists

namespace ComparisonSettings

variable {s : ComparisonSettings α} {t : Thresholds α}

def links (s : ComparisonSettings α) (source target : Project) : List (Edge α ⊕ Gap α) :=
  (s.present source).flatMap fun c =>
    (s.sourceEntities source c).map (s.link c (s.targetEntities target c))

theorem bestCandidate?_withThresholds
    (hfloor : t.similarityFloor = s.thresholds.similarityFloor) :
    bestCandidate? (s.withThresholds t) = bestCandidate? s := by
  have hscore : score? (s.withThresholds t) = score? s := by
    funext source target
    change (Signal.ofNames? t.similarityFloor source target).map _ = _
    rw [hfloor]
    rfl
  funext source targets
  rw [bestCandidate?, hscore]
  rfl

variable [OrderedScalar α]

theorem link_withThresholds (hfloor : t.similarityFloor = s.thresholds.similarityFloor)
    (hmin : s.thresholds.minConfidence ≤ t.minConfidence) (category : Category)
    (targets : List Entity) (source : Entity) :
    (s.withThresholds t).link category targets source =
      tighten t.minConfidence (s.link category targets source) := by
  unfold link
  rw [bestCandidate?_withThresholds hfloor]
  cases bestCandidate? s source targets with
  | none => rfl
  | some c =>
      change (if t.minConfidence ≤ c.confidence then _ else _) = _
      by_cases hreaches : t.minConfidence ≤ c.confidence
      · have hbefore : s.thresholds.minConfidence ≤ c.confidence :=
          OrderedScalar.le_trans hmin hreaches
        simp [hreaches, hbefore, tighten, Edge.reaches]
      · by_cases hbefore : s.thresholds.minConfidence ≤ c.confidence <;>
          simp [hreaches, hbefore, tighten, Edge.reaches, Edge.toGap]

theorem links_withThresholds (hfloor : t.similarityFloor = s.thresholds.similarityFloor)
    (hmin : s.thresholds.minConfidence ≤ t.minConfidence) (source target : Project) :
    (s.withThresholds t).links source target =
      (s.links source target).map (tighten t.minConfidence) := by
  unfold links
  rw [List.map_flatMap, present_withThresholds]
  apply List.flatMap_congr
  intro c _
  rw [List.map_map, sourceEntities_withThresholds, targetEntities_withThresholds]
  apply List.map_congr_left
  intro e _
  exact link_withThresholds hfloor hmin c _ e

end ComparisonSettings

namespace CategoryAudit

variable (s : ComparisonSettings α) (t : Thresholds α) (source target : Project) (c : Category)

-- said of all scalars, since over floating-point numbers both audits would be computed here

theorem category_coverage_of : (of s source target c).coverage.category = c :=
  rfl

theorem sourceCount_withThresholds :
    (of (s.withThresholds t) source target c).coverage.sourceCount =
      (of s source target c).coverage.sourceCount :=
  rfl

end CategoryAudit

namespace CoverageReport

/-- What a higher least confidence leaves of a report. The edges that do not reach it are gaps in
their places, with the candidates they had. -/
structure TightensTo (minimum : α) (r r' : CoverageReport α) : Prop where
  edges_eq : r'.edges = r.edges.filter (·.reaches minimum)
  gaps_perm : r'.gaps.Perm (r.gaps ++ dropped minimum r.edges)
  gaps_sublist : r.gaps.Sublist r'.gaps
  dropped_sublist : (dropped minimum r.edges).Sublist r'.gaps

section OfProjects

variable (source target : Project) {s : ComparisonSettings α} {t : Thresholds α}

theorem edges_eq_filterMap_links : (ofProjects source target s).edges =
    (s.links source target).filterMap Sum.getLeft? := by
  rw [edges_ofProjects, ComparisonSettings.links, List.filterMap_flatMap]
  rfl

theorem gaps_eq_filterMap_links : (ofProjects source target s).gaps =
    (s.links source target).filterMap Sum.getRight? := by
  rw [gaps_ofProjects, ComparisonSettings.links, List.filterMap_flatMap]
  rfl

theorem ofProjects_tightensTo [OrderedScalar α]
    (hfloor : t.similarityFloor = s.thresholds.similarityFloor)
    (hmin : s.thresholds.minConfidence ≤ t.minConfidence) :
    (ofProjects source target s).TightensTo t.minConfidence
      (ofProjects source target (s.withThresholds t)) := by
  obtain ⟨hperm, hgaps, hdropped⟩ := gaps_tighten t.minConfidence (s.links source target)
  constructor <;>
    simp only [edges_eq_filterMap_links, gaps_eq_filterMap_links,
      ComparisonSettings.links_withThresholds hfloor hmin, edges_tighten]
  case gaps_perm => exact hperm
  case gaps_sublist => exact hgaps
  case dropped_sublist => exact hdropped

end OfProjects

end CoverageReport

end Scalar

/-! ## Higher floors -/

section Floor

variable {s : ComparisonSettings Float} {t : Thresholds Float}

theorem Signal.ofNames?_of_le {floor floor' : Float} (h : floor ≤ floor') {source target : Entity}
    {name : Signal Float} (hname : ofNames? floor' source target = some name) :
    ofNames? floor source target = some name := by
  unfold ofNames? at hname ⊢
  dsimp only at hname ⊢
  split_ifs at hname with hexact hkey hhigh
  · rwa [if_pos hexact]
  · rwa [if_neg hexact, if_pos hkey]
  · rwa [if_neg hexact, if_neg hkey, if_neg fun hlow => hhigh (OrderedScalar.le_trans hlow h)]

theorem score?_of_le (hfloor : s.thresholds.similarityFloor ≤ t.similarityFloor)
    {source target : Entity} {c : Candidate Float}
    (h : score? (s.withThresholds t) source target = some c) :
    score? s source target = some c := by
  obtain ⟨name, hname, rfl⟩ := Option.map_eq_some_iff.mp h
  exact Option.map_eq_some_iff.mpr ⟨name, Signal.ofNames?_of_le hfloor hname, rfl⟩

/-- What is scored under the higher floor is scored alike under the lower one. -/
theorem bestCandidate?_of_le (hfloor : s.thresholds.similarityFloor ≤ t.similarityFloor)
    {source : Entity} {targets : List Entity} {best' : Candidate Float}
    (h : bestCandidate? (s.withThresholds t) source targets = some best') :
    ∃ best, bestCandidate? s source targets = some best ∧
      best'.confidence ≤ best.confidence := by
  obtain ⟨target, htarget, hscore⟩ := exists_of_bestCandidate? h
  exact exists_bestCandidate? htarget (score?_of_le hfloor hscore)

theorem CategoryAudit.matched_of_le
    (hfloor : s.thresholds.similarityFloor ≤ t.similarityFloor)
    (hmin : s.thresholds.minConfidence ≤ t.minConfidence) (source target : Project)
    (c : Category) :
    (of (s.withThresholds t) source target c).coverage.matched ≤
      (of s source target c).coverage.matched := by
  rw [matched_eq_countP, matched_eq_countP, s.sourceEntities_withThresholds,
    s.targetEntities_withThresholds]
  apply List.countP_mono_left
  intro e _ hlink
  exact ComparisonSettings.isLeft_link_of_best (fun _ => OrderedScalar.le_trans hmin)
    (fun _ => bestCandidate?_of_le hfloor) c hlink

end Floor

/-! ## Reports -/

namespace CoverageReport

/-- How the reports on two projects differ when only the thresholds do. -/
structure Tightens (source target : Project) (s : ComparisonSettings Float) (t : Thresholds Float)
    (r r' : CoverageReport Float) : Prop where
  of_confidence : t.similarityFloor = s.thresholds.similarityFloor →
    s.thresholds.minConfidence ≤ t.minConfidence → r.TightensTo t.minConfidence r'
  best_le : s.thresholds.similarityFloor ≤ t.similarityFloor → ∀ c, ∀ e ∈ s.sourceEntities source c,
    ∀ best', bestCandidate? (s.withThresholds t) e (s.targetEntities target c) = some best' →
      ∃ best, bestCandidate? s e (s.targetEntities target c) = some best ∧
        best'.confidence ≤ best.confidence
  matched_le : s.thresholds.similarityFloor ≤ t.similarityFloor →
    s.thresholds.minConfidence ≤ t.minConfidence →
      List.Forall₂ (fun c c' => c.category = c'.category ∧ c.sourceCount = c'.sourceCount ∧
        c'.matched ≤ c.matched) r.categories r'.categories

theorem compare_tightens {source target : Project} {s : ComparisonSettings Float}
    {t : Thresholds Float} {r : CoverageReport Float} (h : compare source target s = .ok r)
    (ht : t.fault? = none) :
    ∃ r', compare source target (s.withThresholds t) = .ok r' ∧
      r.Tightens source target s t r' := by
  obtain ⟨hsource, htarget, -, hpresent, rfl⟩ := compare_eq_ok_iff.mp h
  rw [← s.present_withThresholds t] at hpresent
  refine ⟨_, compare_eq_ok_iff.mpr ⟨hsource, htarget, ht, hpresent, rfl⟩, ?_⟩
  constructor
  case of_confidence => exact ofProjects_tightensTo source target
  case best_le =>
    intro hfloor c e _ best' hbest'
    exact bestCandidate?_of_le hfloor hbest'
  case matched_le =>
    intro hfloor hmin
    rw [categories_ofProjects, categories_ofProjects, s.present_withThresholds,
      List.forall₂_map_left_iff, List.forall₂_map_right_iff]
    apply List.forall₂_same.mpr
    intro c _
    rw [CategoryAudit.category_coverage_of, CategoryAudit.category_coverage_of,
      CategoryAudit.sourceCount_withThresholds]
    exact ⟨rfl, rfl, CategoryAudit.matched_of_le hfloor hmin source target c⟩

/-- Thresholds that only link what is alike in almost every respect. -/
def strictThresholds : Thresholds Float := { Thresholds.standard with minConfidence := 0.9 }

theorem customerForm_tightens :
    strictThresholds.fault? = none ∧
      ∃ r, compare (.ofUnits [customerForm]) (.ofUnits [customerController]) .standard = .ok r ∧
        ∃ r', compare (.ofUnits [customerForm]) (.ofUnits [customerController])
            (ComparisonSettings.standard.withThresholds strictThresholds) = .ok r' ∧
          r.TightensTo strictThresholds.minConfidence r' := by
  have hstrict : strictThresholds.fault? = none := by decide +kernel
  have hok : compare (.ofUnits [customerForm]) (.ofUnits [customerController])
      (.standard : ComparisonSettings Float) = .ok (ofProjects _ _ _) :=
    compare_customerForm_of_thresholds rfl (by decide +kernel)
  obtain ⟨r', hok', htightens⟩ := compare_tightens hok hstrict
  exact ⟨hstrict, _, hok, r', hok', htightens.of_confidence rfl (by decide +kernel)⟩

end CoverageReport

end MigrationAudit
