import MigrationAudit.Proofs.Coverage.Audits
import MigrationAudit.Proofs.Facts.Assembly

/-!
# Edges and gaps account for the source

In every category the edges and the gaps of a report, taken together, name each source entity as
often as the source project has it. What a project has in a category is said here of its units
alone, without keys and without an order.
-/

namespace MigrationAudit

def Entity.label (e : Entity) : String × String := (e.name, e.unit)

namespace Project

def routineLabels (p : Project) : List (String × String) :=
  p.allRoutines.map fun (u, r) => (r.name, u.name)

def classLabels (p : Project) (wanted : ClassDecl → Bool) : List (String × String) :=
  (p.allClasses.filter fun (_, c) => wanted c).map fun (u, c) => (c.name, u.name)

def sourceLabels (p : Project) : Category → List (String × String)
  | .routines => p.routineLabels
  | .classes => p.classLabels fun _ => true
  | .forms => p.classLabels (·.isFormLike)
  | .dataModules => p.classLabels (·.isDataModule)

def targetLabels (p : Project) : Category → List (String × String)
  | .routines => p.routineLabels
  | .classes => p.classLabels fun _ => true
  | .forms => p.classLabels (·.stereotype == some .controller)
  | .dataModules => p.classLabels (·.stereotype == some .service)

end Project

namespace ComparisonSettings

variable {α : Type} (s : ComparisonSettings α) (p : Project)

theorem map_label_routineEntities : (s.routineEntities p).map Entity.label = p.routineLabels := by
  simp only [routineEntities, Project.routineLabels, List.map_map]
  rfl

theorem map_label_classEntities (wanted : ClassDecl → Bool) :
    (s.classEntities p wanted).map Entity.label = p.classLabels wanted := by
  simp only [classEntities, Project.classLabels, List.map_map]
  rfl

theorem map_label_sourceEntities (c : Category) :
    ((s.sourceEntities p c).map Entity.label).Perm (p.sourceLabels c) := by
  refine ((sortBy_perm _ _).map Entity.label).trans (List.Perm.of_eq ?_)
  cases c
  · exact s.map_label_routineEntities p
  all_goals exact s.map_label_classEntities p _

theorem map_label_targetEntities (c : Category) :
    ((s.targetEntities p c).map Entity.label).Perm (p.targetLabels c) := by
  refine ((sortBy_perm _ _).map Entity.label).trans (List.Perm.of_eq ?_)
  cases c
  · exact s.map_label_routineEntities p
  all_goals exact s.map_label_classEntities p _

theorem length_sourceEntities (c : Category) :
    (s.sourceEntities p c).length = (p.sourceLabels c).length := by
  rw [← (s.map_label_sourceEntities p c).length_eq, List.length_map]

theorem present_eq : s.present p = Category.all.filter fun c => p.sourceLabels c ≠ [] := by
  apply List.filter_congr
  intro c _
  have hlength := s.length_sourceEntities p c
  rw [Bool.eq_iff_iff]
  simp [← List.length_eq_zero_iff, hlength]

end ComparisonSettings

variable {α : Type} [Scalar α]

theorem ComparisonSettings.label_link (s : ComparisonSettings α) (category : Category)
    (targets : List Entity) (source : Entity) :
    Sum.elim (fun e => e.source.label) (fun g => g.source.label)
      (s.link category targets source) = source.label := by
  unfold link
  split
  · split <;> rfl
  · rfl

namespace CategoryAudit

variable (s : ComparisonSettings α) (source target : Project) (c : Category)

theorem labels_perm :
    ((of s source target c).edges.map (·.source.label) ++
      (of s source target c).gaps.map (·.source.label)).Perm (source.sourceLabels c) := by
  refine (map_getLeft?_append_perm _ _ _).trans ?_
  have hlabels : ((s.sourceEntities source c).map (s.link c (s.targetEntities target c))).map
      (Sum.elim (fun e => e.source.label) (fun g => g.source.label)) =
        (s.sourceEntities source c).map Entity.label := by
    rw [List.map_map]
    exact List.map_congr_left fun entity _ => s.label_link c _ entity
  rw [hlabels]
  exact s.map_label_sourceEntities source c

theorem matched_add_length_gaps :
    (of s source target c).coverage.matched + (of s source target c).gaps.length =
      (of s source target c).coverage.sourceCount := by
  have hlength := (labels_perm s source target c).length_eq
  simpa [← s.length_sourceEntities source c, of] using hlength

theorem edges_eq_nil_of_notMem (hc : c ∉ s.present source) :
    (of s source target c).edges = [] := by
  have hsources : s.sourceEntities source c = [] := by
    simpa [ComparisonSettings.mem_present] using hc
  simp [of, hsources]

theorem gaps_eq_nil_of_notMem (hc : c ∉ s.present source) :
    (of s source target c).gaps = [] := by
  have hsources : s.sourceEntities source c = [] := by
    simpa [ComparisonSettings.mem_present] using hc
  simp [of, hsources]

end CategoryAudit

namespace CoverageReport

def edgesIn (r : CoverageReport α) (c : Category) : List (Edge α) :=
  r.edges.filter fun e => e.category = c

def gapsIn (r : CoverageReport α) (c : Category) : List (Gap α) :=
  r.gaps.filter fun g => g.category = c

section OfProjects

variable (source target : Project) (s : ComparisonSettings α) (c : Category)

theorem edges_ofProjects : (ofProjects source target s).edges =
    (s.present source).flatMap fun c => (CategoryAudit.of s source target c).edges :=
  List.flatMap_map ..

theorem gaps_ofProjects : (ofProjects source target s).gaps =
    (s.present source).flatMap fun c => (CategoryAudit.of s source target c).gaps :=
  List.flatMap_map ..

theorem edgesIn_ofProjects :
    (ofProjects source target s).edgesIn c = (CategoryAudit.of s source target c).edges := by
  rw [edgesIn, edges_ofProjects, filter_flatMap_tag
    (fun _ _ => CategoryAudit.category_of_mem_edges) (s.nodup_present source)]
  split
  · rfl
  · rename_i hc
    exact (CategoryAudit.edges_eq_nil_of_notMem s source target c hc).symm

theorem gapsIn_ofProjects :
    (ofProjects source target s).gapsIn c = (CategoryAudit.of s source target c).gaps := by
  rw [gapsIn, gaps_ofProjects, filter_flatMap_tag
    (fun _ _ => CategoryAudit.category_of_mem_gaps) (s.nodup_present source)]
  split
  · rfl
  · rename_i hc
    exact (CategoryAudit.gaps_eq_nil_of_notMem s source target c hc).symm

theorem categories_ofProjects : (ofProjects source target s).categories =
    (s.present source).map fun c => (CategoryAudit.of s source target c).coverage :=
  List.map_map

theorem categories_ne_nil {source target : Project} {s : ComparisonSettings α}
    {r : CoverageReport α} (h : compare source target s = .ok r) : r.categories ≠ [] := by
  obtain ⟨_, _, _, hpresent, rfl⟩ := compare_eq_ok_iff.mp h
  rw [categories_ofProjects]
  simpa using hpresent

theorem map_category_ofProjects :
    (ofProjects source target s).categories.map (·.category) = s.present source := by
  rw [categories_ofProjects, List.map_map]
  exact List.map_id _

end OfProjects

/-- What a report says of the source it was made for. The confidence of an edge reaches the
threshold, that of a rejected candidate does not. -/
structure AccountsFor (r : CoverageReport α) (source target : Project)
    (s : ComparisonSettings α) : Prop where
  categories_eq : r.categories.map (·.category) =
    Category.all.filter fun c => source.sourceLabels c ≠ []
  labels_perm : ∀ c, ((r.edgesIn c).map (·.source.label) ++
    (r.gapsIn c).map (·.source.label)).Perm (source.sourceLabels c)
  counts_eq : ∀ cov ∈ r.categories, cov.matched = (r.edgesIn cov.category).length ∧
    cov.matched + (r.gapsIn cov.category).length = cov.sourceCount ∧
      cov.sourceCount = (source.sourceLabels cov.category).length
  edge_target : ∀ e ∈ r.edges, s.thresholds.minConfidence ≤ e.candidate.confidence ∧
    e.candidate.target.label ∈ target.targetLabels e.category
  gap_best : ∀ g ∈ r.gaps, ∀ c, g.best = some c → ¬ s.thresholds.minConfidence ≤ c.confidence
  gap_none : ∀ g ∈ r.gaps, g.best = none → ∀ t ∈ s.targetEntities target g.category,
    Signal.ofNames? s.thresholds.similarityFloor g.source t = none

section OfProjects

variable {source target : Project} {s : ComparisonSettings α}

theorem target_of_mem_edges {c : Category} {e : Edge α}
    (he : e ∈ (CategoryAudit.of s source target c).edges) :
    s.thresholds.minConfidence ≤ e.candidate.confidence ∧
      e.candidate.target.label ∈ target.targetLabels e.category := by
  obtain ⟨entity, _, hlink⟩ := CategoryAudit.mem_edges.mp he
  obtain ⟨candidate, hbest, hconfidence, rfl⟩ := ComparisonSettings.link_eq_inl_iff.mp hlink
  obtain ⟨t, ht, hscore⟩ := exists_of_bestCandidate? hbest
  refine ⟨hconfidence, (s.map_label_targetEntities target c).mem_iff.mp ?_⟩
  rw [target_of_score? hscore]
  exact List.mem_map_of_mem ht

theorem best_of_mem_gaps {c : Category} {g : Gap α}
    (hg : g ∈ (CategoryAudit.of s source target c).gaps) :
    (∀ d, g.best = some d → ¬ s.thresholds.minConfidence ≤ d.confidence) ∧
      (g.best = none → ∀ t ∈ s.targetEntities target g.category,
        Signal.ofNames? s.thresholds.similarityFloor g.source t = none) := by
  obtain ⟨entity, _, hlink⟩ := CategoryAudit.mem_gaps.mp hg
  obtain ⟨hweak, rfl⟩ := ComparisonSettings.link_eq_inr_iff.mp hlink
  refine ⟨hweak, fun hnone t ht => ?_⟩
  exact score?_eq_none_iff.mp (bestCandidate?_eq_none_iff.mp hnone t ht)

theorem exists_category_of_mem_edges {e : Edge α} (he : e ∈ (ofProjects source target s).edges) :
    ∃ c, e ∈ (CategoryAudit.of s source target c).edges := by
  rw [edges_ofProjects] at he
  obtain ⟨c, _, hmem⟩ := List.mem_flatMap.mp he
  exact ⟨c, hmem⟩

theorem exists_category_of_mem_gaps {g : Gap α} (hg : g ∈ (ofProjects source target s).gaps) :
    ∃ c, g ∈ (CategoryAudit.of s source target c).gaps := by
  rw [gaps_ofProjects] at hg
  obtain ⟨c, _, hmem⟩ := List.mem_flatMap.mp hg
  exact ⟨c, hmem⟩

end OfProjects

theorem compare_accountsFor {source target : Project} {s : ComparisonSettings α}
    {r : CoverageReport α} (h : compare source target s = .ok r) :
    r.AccountsFor source target s := by
  obtain ⟨_, _, _, _, rfl⟩ := compare_eq_ok_iff.mp h
  constructor
  case categories_eq =>
    rw [map_category_ofProjects]
    exact s.present_eq source
  case labels_perm =>
    intro c
    rw [edgesIn_ofProjects, gapsIn_ofProjects]
    exact CategoryAudit.labels_perm s source target c
  case counts_eq =>
    intro cov hcov
    rw [categories_ofProjects] at hcov
    obtain ⟨c, _, rfl⟩ := List.mem_map.mp hcov
    rw [edgesIn_ofProjects, gapsIn_ofProjects]
    exact ⟨rfl, CategoryAudit.matched_add_length_gaps s source target c,
      s.length_sourceEntities source c⟩
  case edge_target =>
    intro e he
    obtain ⟨c, hmem⟩ := exists_category_of_mem_edges he
    exact target_of_mem_edges hmem
  case gap_best =>
    intro g hg
    obtain ⟨c, hmem⟩ := exists_category_of_mem_gaps hg
    exact (best_of_mem_gaps hmem).1
  case gap_none =>
    intro g hg
    obtain ⟨c, hmem⟩ := exists_category_of_mem_gaps hg
    exact (best_of_mem_gaps hmem).2

end CoverageReport

/-- A form with one event handler. -/
def customerForm : SourceUnit :=
  { name := "uCustomer"
    path := "uCustomer.pas"
    language := .pascal
    classes :=
      [{ name := "TCustomerForm"
         methods := [{ name := "btnSaveClick", kind := .procedure }]
         isFormLike := true }] }

/-- A controller that takes the place of the form. -/
def customerController : SourceUnit :=
  { name := "shop.CustomerController"
    path := "CustomerController.java"
    language := .java
    classes :=
      [{ name := "CustomerController"
         methods := [{ name := "saveHandler", kind := .method }]
         stereotype := some .controller }] }

namespace CoverageReport

/-- The form can be compared with whatever has units, under all thresholds that are in range. -/
theorem compare_customerForm_of_thresholds {target : Project} {s : ComparisonSettings α}
    (htarget : target.fault? = none) (hthresholds : s.thresholds.fault? = none) :
    compare (.ofUnits [customerForm]) target s =
      .ok (ofProjects (.ofUnits [customerForm]) target s) := by
  refine compare_eq_ok_iff.mpr ⟨rfl, htarget, hthresholds, ?_, rfl⟩
  rw [ComparisonSettings.present_eq]
  decide

theorem compare_customerForm {target : Project} (htarget : target.fault? = none) :
    compare (.ofUnits [customerForm]) target (.standard : ComparisonSettings Rat) =
      .ok (ofProjects (.ofUnits [customerForm]) target .standard) :=
  compare_customerForm_of_thresholds htarget (by decide +kernel)

theorem customerForm_accountsFor :
    ∃ r, compare (.ofUnits [customerForm]) (.ofUnits [customerController])
        (.standard : ComparisonSettings Rat) = .ok r ∧
      r.AccountsFor (.ofUnits [customerForm]) (.ofUnits [customerController]) .standard :=
  ⟨_, compare_customerForm rfl, compare_accountsFor (compare_customerForm rfl)⟩

end CoverageReport

end MigrationAudit
