import MigrationAudit.Plan.Basic
import MigrationAudit.Plan.Component
import MigrationAudit.Proofs.Sorted
import Mathlib.Data.List.Basic

/-!
# Where components come from

The components of a project are those of its units, one unit behind the other, and those of its
tables. Only routines and classes are ever numbered: the tables have keys of their own. The number of
an identifier is the number of components before it that had the same one. So a block of components
whose identifiers occur nowhere else is numbered as if it stood alone, and which identifiers there are
in the end does not depend on the order, only which component has which.
-/

/-! ## Numbered identifiers -/

namespace MigrationAudit.Component

/-- A component behind some others with its identifier. -/
def numbered (n : Nat) (c : Component) : Component :=
  if n = 0 then c else { c with id := s!"{c.id}#{n + 1}" }

@[simp] theorem numbered_zero (c : Component) : c.numbered 0 = c := rfl

theorem apply_numbered {β : Type} {f : Component → β} {c : Component}
    (hf : ∀ id, f { c with id } = f c) (n : Nat) : f (c.numbered n) = f c := by
  unfold numbered
  split
  · rfl
  · exact hf _

theorem id_numbered_congr {c d : Component} (h : c.id = d.id) (n : Nat) :
    (c.numbered n).id = (d.numbered n).id := by
  unfold numbered
  split
  · exact h
  · rw [h]

@[simp] theorem numberApart_cons (taken : List String) (c : Component) (l : List Component) :
    numberApart taken (c :: l) = c.numbered (taken.count c.id) :: numberApart (c.id :: taken) l :=
  rfl

variable {l l' : List Component} {taken taken' : List String}

theorem numberApart_congr (h : ∀ c ∈ l, taken.count c.id = taken'.count c.id) :
    numberApart taken l = numberApart taken' l := by
  induction l generalizing taken taken' with
  | nil => rfl
  | cons c l ih =>
    obtain ⟨hc, hl⟩ := List.forall_mem_cons.mp h
    rw [numberApart_cons, numberApart_cons, hc]
    congr 1
    apply ih
    intro d hd
    rw [List.count_cons, List.count_cons, hl d hd]

theorem numberApart_of_not_taken (h : ∀ c ∈ l, c.id ∉ taken) :
    numberApart taken l = numberApart [] l := by
  apply numberApart_congr
  intro c hc
  rw [List.count_eq_zero.mpr (h c hc), List.count_nil]

theorem numberApart_append (taken : List String) (l l' : List Component) :
    numberApart taken (l ++ l') =
      numberApart taken l ++ numberApart ((l.map (·.id)).reverse ++ taken) l' := by
  induction l generalizing taken with
  | nil => rfl
  | cons c l ih => simp [ih]

theorem numberApart_append_of_apart (h : ∀ c ∈ l, ∀ d ∈ l', c.id ≠ d.id) :
    numberApart [] (l ++ l') = numberApart [] l ++ numberApart [] l' := by
  rw [numberApart_append, List.append_nil]
  congr 1
  apply numberApart_of_not_taken
  intro d hd htaken
  obtain ⟨c, hc, hcd⟩ := List.mem_map.mp (List.mem_reverse.mp htaken)
  exact h c hc d hd hcd

theorem numberApart_eq_self (h : (l.map (·.id)).Nodup) : numberApart [] l = l := by
  induction l with
  | nil => rfl
  | cons c l ih =>
    obtain ⟨hc, hl⟩ := List.nodup_cons.mp h
    rw [numberApart_cons, List.count_nil, numbered_zero, numberApart_of_not_taken, ih hl]
    intro d hd htaken
    exact hc (List.mem_map.mpr ⟨d, hd, List.mem_singleton.mp htaken⟩)

/-- Blocks that share no identifier are numbered each on its own. -/
theorem numberApart_flatMap {β : Type} {f : β → List Component} {us : List β}
    (h : us.Pairwise fun u v => ∀ c ∈ f u, ∀ d ∈ f v, c.id ≠ d.id) :
    numberApart [] (us.flatMap f) = us.flatMap fun u => numberApart [] (f u) := by
  induction us with
  | nil => rfl
  | cons u us ih =>
    obtain ⟨hu, hus⟩ := List.pairwise_cons.mp h
    rw [List.flatMap_cons, List.flatMap_cons, numberApart_append_of_apart, ih hus]
    intro c hc d hd
    obtain ⟨v, hv, hd⟩ := List.mem_flatMap.mp hd
    exact hu v hv c hc d hd

theorem map_numberApart {β : Type} {f : Component → β} (hf : ∀ c ∈ l, ∀ id, f { c with id } = f c)
    (taken : List String) : (numberApart taken l).map f = l.map f := by
  induction l generalizing taken with
  | nil => rfl
  | cons c l ih =>
    obtain ⟨hc, hl⟩ := List.forall_mem_cons.mp hf
    rw [numberApart_cons, List.map_cons, List.map_cons, ih hl, apply_numbered hc]

theorem exists_of_mem_numberApart {β : Type} {f : Component → β}
    (hf : ∀ c id, f { c with id } = f c) {c : Component} (hc : c ∈ numberApart taken l) :
    ∃ d ∈ l, f d = f c := by
  have hmem : f c ∈ (numberApart taken l).map f := List.mem_map_of_mem hc
  rw [map_numberApart fun d _ => hf d] at hmem
  exact List.mem_map.mp hmem

/-- The first component with an identifier keeps it. -/
theorem exists_mem_numberApart {c : Component} (hc : c ∈ l) (htaken : c.id ∉ taken) :
    ∃ d ∈ numberApart taken l, d.id = c.id := by
  induction l generalizing taken with
  | nil => exact absurd hc List.not_mem_nil
  | cons e l ih =>
    by_cases hid : e.id = c.id
    · refine ⟨e, ?_, hid⟩
      rw [numberApart_cons, List.count_eq_zero.mpr (hid ▸ htaken), numbered_zero]
      exact List.mem_cons_self
    · have hmem : c ∈ l := (List.mem_cons.mp hc).resolve_left fun h => hid (h ▸ rfl)
      have hnot : c.id ∉ e.id :: taken := by
        rw [List.mem_cons]
        rintro (h | h)
        · exact hid h.symm
        · exact htaken h
      obtain ⟨d, hd, hdc⟩ := ih hmem hnot
      exact ⟨d, List.mem_cons_of_mem _ hd, hdc⟩

/-- The identifiers that are given do not depend on the order of the components. -/
theorem map_id_numberApart_of_perm (h : l.Perm l') (taken : List String) :
    ((numberApart taken l).map (·.id)).Perm ((numberApart taken l').map (·.id)) := by
  induction h generalizing taken with
  | nil => exact List.Perm.refl _
  | cons c _ ih => exact (ih (c.id :: taken)).cons _
  | swap c d l =>
    have hrest : numberApart (c.id :: d.id :: taken) l = numberApart (d.id :: c.id :: taken) l := by
      apply numberApart_congr
      intro e _
      exact (List.Perm.swap _ _ _).count_eq _
    simp only [numberApart_cons, List.map_cons, hrest]
    by_cases hid : c.id = d.id
    · -- the second of the two is numbered alike, whichever it is
      rw [hid, id_numbered_congr hid, id_numbered_congr hid]
    · rw [List.count_cons_of_ne hid, List.count_cons_of_ne (Ne.symm hid)]
      exact List.Perm.swap _ _ _
  | trans _ _ ih ih' => exact (ih taken).trans (ih' taken)

end MigrationAudit.Component

namespace MigrationAudit

open Text

def Project.knownRoutines (p : Project) : List String :=
  p.units.flatMap fun u => u.routines.map fun r => lowercase r.name

namespace SourceUnit

def tableUses (u : SourceUnit) : List TableUse :=
  (u.dataOps.filter (·.kind.isSql)).filterMap fun op => op.table.map (⟨·, u.name⟩)

/-- How a unit spells the table with a key where it first names it. -/
def spelling? (u : SourceUnit) (key : String) : Option String :=
  (u.tableUses.find? fun t => t.key == key).map (·.table)

theorem exists_of_spelling? {u : SourceUnit} {key table : String}
    (h : table ∈ u.spelling? key) : ∃ t ∈ u.tableUses, t.key = key ∧ t.table = table := by
  obtain ⟨t, ht, htable⟩ := Option.map_eq_some_iff.mp h
  exact ⟨t, List.mem_of_find?_eq_some ht, by simpa using List.find?_some ht, htable⟩

end SourceUnit

theorem TableUse.ofProject_eq (p : Project) : ofProject p = p.units.flatMap (·.tableUses) := rfl

namespace Component

variable {α : Type} (s : PlanningSettings α) (known : List String) (u : SourceUnit)

def drafts : List Component := u.routines.map (ofRoutine s known u) ++ u.classes.map (ofClass s u)

/-- The components of a unit, numbered as if there were no other. -/
def ofUnit : List Component := numberApart [] (drafts s known u)

def tables (p : Project) : List Component :=
  (sortBy compare ((TableUse.ofProject p).map (·.key))).eraseReps.map
    (ofTable (TableUse.ofProject p))

theorem id_ofRoutine (r : Routine) :
    (ofRoutine s known u r).id = "routine:" ++ u.name ++ "." ++ r.name := rfl

theorem id_ofClass (c : ClassDecl) : (ofClass s u c).id = "class:" ++ u.name ++ "." ++ c.name := rfl

theorem id_ofTable (uses : List TableUse) (key : String) :
    (ofTable uses key).id = "table:" ++ key := rfl

variable {s known u}

theorem mem_drafts_iff {c : Component} :
    c ∈ drafts s known u ↔
      (∃ r ∈ u.routines, ofRoutine s known u r = c) ∨ ∃ d ∈ u.classes, ofClass s u d = c := by
  rw [drafts, List.mem_append, List.mem_map, List.mem_map]

theorem drafts_congr {known' : List String} (h : ∀ name, name ∈ known ↔ name ∈ known') :
    drafts s known = drafts s known' := by
  have hcontains (name : String) : known.contains name = known'.contains name := by
    rw [Bool.eq_iff_iff, List.contains_iff_mem, List.contains_iff_mem, h]
  have hroutine : ofRoutine s known = ofRoutine s known' := by
    funext u r
    simp only [ofRoutine, hcontains]
  funext u
  rw [drafts, drafts, hroutine]

/-! ## Units -/

theorem unit_of_mem_ofUnit {c : Component} (hc : c ∈ ofUnit s known u) : c.unit = some u.name := by
  obtain ⟨d, hd, hdc⟩ := exists_of_mem_numberApart (f := (·.unit)) (fun _ _ => rfl) hc
  rw [← hdc]
  rcases mem_drafts_iff.mp hd with ⟨r, _, rfl⟩ | ⟨e, _, rfl⟩ <;> rfl

theorem sourceKind_ne_of_mem_drafts {c : Component} (hc : c ∈ drafts s known u) :
    c.sourceKind ≠ .table := by
  rcases mem_drafts_iff.mp hc with ⟨r, _, rfl⟩ | ⟨d, _, rfl⟩ <;> exact SourceKind.noConfusion

theorem id_ne_of_mem_drafts {c : Component} (hc : c ∈ drafts s known u) (key : String) :
    c.id ≠ "table:" ++ key := by
  intro h
  rcases mem_drafts_iff.mp hc with ⟨r, _, rfl⟩ | ⟨d, _, rfl⟩
  · rw [id_ofRoutine] at h
    simpa using congrArg String.toList h
  · rw [id_ofClass] at h
    simpa using congrArg String.toList h

/-- Units that share no identifier are numbered each on its own. -/
theorem numberApart_drafts {us : List SourceUnit}
    (h : us.Pairwise fun u v => ∀ c ∈ ofUnit s known u, ∀ d ∈ ofUnit s known v, c.id ≠ d.id) :
    numberApart [] (us.flatMap (drafts s known)) = us.flatMap (ofUnit s known) := by
  apply numberApart_flatMap
  apply h.imp
  intro u v huv c hc d hd heq
  obtain ⟨c', hc', hcid⟩ := exists_mem_numberApart hc List.not_mem_nil
  obtain ⟨d', hd', hdid⟩ := exists_mem_numberApart hd List.not_mem_nil
  exact huv c' hc' d' hd' (by rw [hcid, hdid, heq])

/-! ## Tables -/

theorem mem_tables_iff {p : Project} {c : Component} :
    c ∈ tables p ↔ ∃ t ∈ TableUse.ofProject p, ofTable (TableUse.ofProject p) t.key = c := by
  simp [tables]

theorem nodup_map_id_tables (p : Project) : ((tables p).map (·.id)).Nodup := by
  rw [tables, List.map_map]
  apply (nodup_eraseReps_sortBy _).map
  intro key key' h
  simpa [id_ofTable] using h

theorem sourceName_ofTable (p : Project) (key : String) :
    (ofTable (TableUse.ofProject p) key).sourceName =
      (p.units.findSome? (·.spelling? key)).getD key := by
  have hspelling : (p.units.findSome? fun u => u.spelling? key) =
      ((TableUse.ofProject p).find? fun t => t.key == key).map (·.table) := by
    rw [TableUse.ofProject_eq, List.find?_flatMap, List.map_findSome?]
    rfl
  rw [hspelling]
  simp only [ofTable, List.head?_filter]
  cases (TableUse.ofProject p).find? fun t => t.key == key <;> rfl

theorem ofTable_of_perm {uses uses' : List TableUse} (h : uses.Perm uses') (key : String) :
    (ofTable uses key).dependencies = (ofTable uses' key).dependencies ∧
      (ofTable uses key).notes = (ofTable uses' key).notes := by
  have hown := h.filter fun t => t.key == key
  constructor
  · have hsorted : sortBy compare ((uses.filter fun t => t.key == key).map (·.unit)) =
        sortBy compare ((uses'.filter fun t => t.key == key).map (·.unit)) :=
      sortBy_eq_of_perm_of_lawful (hown.map _)
    simp only [ofTable, hsorted]
  · simp only [ofTable, hown.length_eq]

/-! ## Projects -/

theorem ofProject_eq (p : Project) (s : PlanningSettings α) :
    ofProject p s =
      numberApart [] (p.units.flatMap (drafts s p.knownRoutines)) ++ tables p := by
  have happart : ∀ c ∈ p.units.flatMap (drafts s p.knownRoutines), ∀ d ∈ tables p,
      c.id ≠ d.id := by
    intro c hc d hd
    obtain ⟨u, _, hc⟩ := List.mem_flatMap.mp hc
    obtain ⟨t, _, rfl⟩ := mem_tables_iff.mp hd
    exact id_ne_of_mem_drafts hc t.key
  have hsplit := numberApart_append_of_apart happart
  rwa [numberApart_eq_self (nodup_map_id_tables p)] at hsplit

end Component

end MigrationAudit
