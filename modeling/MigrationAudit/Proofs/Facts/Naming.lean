import MigrationAudit.Proofs.Facts.Assembly
import MigrationAudit.Proofs.Text.Pieces
import Mathlib

/-!
# Names of units

A unit whose name is taken is renamed after its path, without a look at whether the new name is
taken as well. So the names of a project are distinct just when no unit is renamed to a name that a
unit before it has. Where paths differ and no name holds the sign that stands before the path, this
cannot happen.
-/

namespace MigrationAudit

namespace SourceUnit

def givenNames (units : List SourceUnit) : List String := (nameApart [] units).1.map (·.name)

/-- A unit that comes behind some others is renamed, and to a name that one of them has. -/
def ClashesBehind (before : List SourceUnit) (u : SourceUnit) : Prop :=
  u.name.toLower ∈ (givenNames before).map String.toLower ∧ u.distinctName ∈ givenNames before

theorem nameApart_concat (taken : List String) (us : List SourceUnit) (u : SourceUnit) :
    (nameApart taken (us ++ [u])).1 = (nameApart taken us).1 ++
      [if u.name.toLower ∈ taken ++ (nameApart taken us).1.map (·.name.toLower) then
        { u with name := u.distinctName } else u] := by
  induction us generalizing taken with
  | nil =>
    by_cases hu : u.name.toLower ∈ taken <;> simp [nameApart, hu]
  | cons v us ih =>
    -- the name that `v` is given has gone from the rest to what is taken
    by_cases hv : v.name.toLower ∈ taken <;>
      simp [nameApart, hv, ih, or_left_comm]

theorem givenNames_concat (us : List SourceUnit) (u : SourceUnit) :
    givenNames (us ++ [u]) = givenNames us ++
      [if u.name.toLower ∈ (givenNames us).map String.toLower then u.distinctName else u.name] := by
  simp only [givenNames, nameApart_concat, List.map_append, List.map_map, List.nil_append]
  split <;> simp_all

theorem nodup_givenNames_concat_iff {us : List SourceUnit} {u : SourceUnit} :
    (givenNames (us ++ [u])).Nodup ↔ (givenNames us).Nodup ∧ ¬ u.ClashesBehind us := by
  rw [givenNames_concat, List.nodup_append_comm, List.singleton_append, List.nodup_cons, and_comm]
  refine and_congr_right fun _ => ?_
  unfold ClashesBehind
  by_cases htaken : u.name.toLower ∈ (givenNames us).map String.toLower
  · simp only [htaken, if_true, true_and]
  · -- what is not taken in any case is not taken as it is written
    have hname : u.name ∉ givenNames us := fun hmem => htaken (List.mem_map_of_mem hmem)
    simp only [htaken, if_false, hname, false_and, not_false_eq_true]

theorem nodup_givenNames_iff (units : List SourceUnit) :
    (givenNames units).Nodup ↔
      ∀ before u, before ++ [u] <+: units → ¬ u.ClashesBehind before := by
  induction units using List.reverseRecOn with
  | nil => simp [givenNames, nameApart]
  | append_singleton us u ih =>
    rw [nodup_givenNames_concat_iff, ih]
    constructor
    · rintro ⟨hbefore, hlast⟩ before v hv
      rcases List.prefix_concat_iff.mp hv with heq | hv
      · obtain ⟨rfl, hvu⟩ := List.append_inj' heq rfl
        obtain rfl := List.singleton_inj.mp hvu
        exact hlast
      · exact hbefore before v hv
    · intro h
      exact ⟨fun before v hv => h before v (hv.trans (List.prefix_append _ _)),
        h us u (List.prefix_refl _)⟩

theorem exists_of_mem_givenNames {units : List SourceUnit} {name : String}
    (h : name ∈ givenNames units) : ∃ u ∈ units, name = u.name ∨ name = u.distinctName := by
  induction units using List.reverseRecOn with
  | nil => exact absurd h List.not_mem_nil
  | append_singleton us u ih =>
    rw [givenNames_concat, List.mem_append, List.mem_singleton] at h
    rcases h with h | rfl
    · obtain ⟨v, hv, hname⟩ := ih h
      exact ⟨v, List.mem_append_left _ hv, hname⟩
    · refine ⟨u, List.mem_append_right _ List.mem_cons_self, ?_⟩
      split
      · exact .inr rfl
      · exact .inl rfl

theorem toList_distinctName (u : SourceUnit) :
    u.distinctName.toList = u.name.toList ++ '@' :: u.path.toList := by
  simp [distinctName]

theorem path_eq_of_distinctName_eq {u v : SourceUnit} (hu : '@' ∉ u.name.toList)
    (hv : '@' ∉ v.name.toList) (h : u.distinctName = v.distinctName) : u.path = v.path := by
  have hsplit := congrArg (fun name => Text.splitFirst? '@' name.toList) h
  simp only [toList_distinctName, Text.splitFirst?_append hu, Text.splitFirst?_append hv] at hsplit
  exact String.toList_injective (Prod.ext_iff.mp (Option.some.inj hsplit)).2

/-- Names without the sign that stands before the path are given to units of different paths only
once. -/
theorem nodup_givenNames {units : List SourceUnit} (hpaths : (units.map (·.path)).Nodup)
    (hnames : ∀ u ∈ units, '@' ∉ u.name.toList) : (givenNames units).Nodup := by
  apply (nodup_givenNames_iff units).mpr
  rintro before u hfront ⟨-, hclash⟩
  obtain ⟨v, hv, hname⟩ := exists_of_mem_givenNames hclash
  have hmem {w : SourceUnit} (hw : w ∈ before ++ [u]) : w ∈ units := hfront.subset hw
  have hu := hnames u (hmem (List.mem_append_right _ List.mem_cons_self))
  have hv' := hnames v (hmem (List.mem_append_left _ hv))
  rcases hname with hname | hname
  · apply hv'
    rw [← hname, toList_distinctName]
    simp
  · have hpath := path_eq_of_distinctName_eq hu hv' hname
    have hnodup := hpaths.sublist (hfront.sublist.map _)
    rw [List.map_append, List.nodup_append] at hnodup
    exact hnodup.2.2 v.path (List.mem_map_of_mem hv) u.path (by simp) hpath.symm

end SourceUnit

namespace Project

theorem map_name_assemble (units : List SourceUnit) (notes : List Diagnostic) :
    ((assemble units notes).units.map (·.name)).Perm
      (SourceUnit.givenNames (sortBy SourceUnit.compareByPath units)) := by
  refine ((sortBy_perm _ _).map _).trans ?_
  rw [List.map_map]
  rfl

/-- The names of a project are distinct just when no unit is renamed to a name that one before it
has; without the sign `@` in names they always are. -/
theorem nodup_names_assemble {units : List SourceUnit} (notes : List Diagnostic)
    (hpaths : (units.map (·.path)).Nodup) :
    (((assemble units notes).units.map (·.name)).Nodup ↔
      ∀ before u, before ++ [u] <+: sortBy SourceUnit.compareByPath units →
        ¬ u.ClashesBehind before) ∧
      ((∀ u ∈ units, '@' ∉ u.name.toList) → ((assemble units notes).units.map (·.name)).Nodup) := by
  rw [(map_name_assemble units notes).nodup_iff]
  refine ⟨SourceUnit.nodup_givenNames_iff _, fun hnames => ?_⟩
  apply SourceUnit.nodup_givenNames
  · exact ((sortBy_perm _ _).map _).nodup_iff.mpr hpaths
  · intro u hu
    exact hnames u (mem_sortBy.mp hu)

/-- A unit is named as a later one is renamed; without it the names differ. -/
theorem nodup_names_assemble_stock :
    let early : SourceUnit :=
      { name := "uStock@shop/uStock.pas", path := "archive.pas", language := .pascal }
    let depot : SourceUnit := { name := "USTOCK", path := "depot/uStock.pas", language := .pascal }
    let shop : SourceUnit := { name := "uStock", path := "shop/uStock.pas", language := .pascal }
    ([early, depot, shop].map (·.path)).Nodup ∧
      ¬ ((assemble [early, depot, shop] []).units.map (·.name)).Nodup ∧
        ((assemble [depot, shop] []).units.map (·.name)).Nodup := by
  intro early depot shop
  have hpaths : ([early, depot, shop].map (·.path)).Nodup := by decide
  have hsorted : sortBy SourceUnit.compareByPath [early, depot, shop] = [early, depot, shop] := by
    cbv
  refine ⟨hpaths, ?_, ?_⟩
  · intro hnodup
    have hclash : shop.ClashesBehind [early, depot] := by
      constructor
      · have hmap : (SourceUnit.givenNames [early, depot]).map String.toLower =
          ["ustock@shop/ustock.pas", "ustock"] := by cbv
        have hlower : shop.name.toLower = "ustock" := by cbv
        rw [hmap, hlower]
        decide
      · have hnames : SourceUnit.givenNames [early, depot] =
          ["uStock@shop/uStock.pas", "USTOCK"] := by cbv
        rw [hnames]
        decide +kernel
    exact (nodup_names_assemble [] hpaths).1.mp hnodup [early, depot] shop
      (by rw [hsorted]; exact List.prefix_refl _) hclash
  · exact (nodup_names_assemble [] (by decide)).2 (by decide +kernel)

end Project

end MigrationAudit
