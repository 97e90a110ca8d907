import MigrationAudit.Proofs.Facts.Naming
import MigrationAudit.Proofs.Sorted
import Mathlib

/-!
# What is kept when units are put together

Units come out as they went in, but for three labels: the name of a unit whose own one is taken, the
roles of classes, and the kind that these give to their unit. No role is lost, and no kind gives way
to one that it wins over. All diagnostics are kept once, with one more for each unit that is renamed.
-/

namespace MigrationAudit

/-- The second class is the first one, maybe with further roles. -/
structure ClassDecl.Relabels (c c' : ClassDecl) : Prop where
  contents :
    { c' with
      isFormLike := c.isFormLike
      isDataModule := c.isDataModule
      isDataAccessLike := c.isDataAccessLike } = c
  form : c.isFormLike → c'.isFormLike
  dataModule : c.isDataModule → c'.isDataModule
  dataAccess : c.isDataAccessLike → c'.isDataAccessLike

/-- The second unit is the first one, maybe renamed after its path, with further roles of its
classes, and as a form or a data module if it was nothing that comes before that. -/
structure SourceUnit.Relabels (u u' : SourceUnit) : Prop where
  contents : { u' with name := u.name, kind := u.kind, classes := u.classes } = u
  classes : List.Forall₂ ClassDecl.Relabels u.classes u'.classes
  kind : u'.kind = u.kind ∨ u'.kind = .form ∨ u'.kind = .dataModule ∧ u.kind ≠ .form
  name : u'.name = u.name ∨ u'.name = u.distinctName

/-! ## Roles -/

theorem ClassDecl.relabels_inherit (t : RoleTable) (c : ClassDecl) : c.Relabels (c.inherit t) := by
  constructor
  case contents => rfl
  case form => exact fun h => Bool.or_eq_true_iff.mpr (.inl h)
  case dataModule => exact fun h => Bool.or_eq_true_iff.mpr (.inl h)
  case dataAccess => exact fun h => Bool.or_eq_true_iff.mpr (.inl h)

theorem SourceUnit.kind_inherit (t : RoleTable) (u : SourceUnit) :
    (u.inherit t).kind = u.kind ∨ (u.inherit t).kind = .form ∨
      (u.inherit t).kind = .dataModule ∧ u.kind ≠ .form := by
  simp only [inherit]
  split
  · exact .inr (.inl rfl)
  · split
    · next hdata =>
      refine .inr (.inr ⟨rfl, fun hform => ?_⟩)
      rw [hform] at hdata
      simp [UnitKind.rank] at hdata
    · exact .inl rfl

theorem SourceUnit.relabels_inherit (t : RoleTable) {u : SourceUnit} {name : String}
    (hname : name = u.name ∨ name = u.distinctName) :
    u.Relabels ({ u with name }.inherit t) := by
  constructor
  case contents => rfl
  case classes =>
    apply List.forall₂_map_right_iff.mpr
    exact List.forall₂_same.mpr fun c _ => c.relabels_inherit t
  case kind => exact kind_inherit t { u with name }
  case name => exact hname

/-! ## Names -/

namespace SourceUnit

theorem distinctName_ne (u : SourceUnit) : u.distinctName ≠ u.name := by
  intro h
  have hlength := congrArg (fun name => name.toList.length) h
  simp [toList_distinctName] at hlength

def namedPairs (taken : List String) (units : List SourceUnit) : List (SourceUnit × SourceUnit) :=
  units.zip (nameApart taken units).1

theorem length_nameApart (taken : List String) (units : List SourceUnit) :
    (nameApart taken units).1.length = units.length := by
  have hmap := map_nameApart (f := fun _ => ()) (fun _ _ => rfl) taken units
  simpa using congrArg List.length hmap

theorem map_fst_namedPairs (taken : List String) (units : List SourceUnit) :
    (namedPairs taken units).map Prod.fst = units :=
  List.map_fst_zip (length_nameApart taken units).ge

theorem map_snd_namedPairs (taken : List String) (units : List SourceUnit) :
    (namedPairs taken units).map Prod.snd = (nameApart taken units).1 :=
  List.map_snd_zip (length_nameApart taken units).le

theorem namedPairs_cons (taken : List String) (u : SourceUnit) (units : List SourceUnit) :
    namedPairs taken (u :: units) =
      if taken.contains u.name.toLower then
        (u, { u with name := u.distinctName }) :: namedPairs (u.distinctName.toLower :: taken) units
      else (u, u) :: namedPairs (u.name.toLower :: taken) units := by
  unfold namedPairs
  rw [nameApart]
  split <;> rfl

theorem name_of_mem_namedPairs {taken : List String} {units : List SourceUnit}
    {e : SourceUnit × SourceUnit} (he : e ∈ namedPairs taken units) :
    e.2 = { e.1 with name := e.2.name } ∧ (e.2.name = e.1.name ∨ e.2.name = e.1.distinctName) := by
  induction units generalizing taken with
  | nil => exact absurd he List.not_mem_nil
  | cons u units ih =>
    rw [namedPairs_cons] at he
    split at he <;> rcases List.mem_cons.mp he with rfl | he
    · exact ⟨rfl, .inr rfl⟩
    · exact ih he
    · exact ⟨rfl, .inl rfl⟩
    · exact ih he

theorem mem_notes_nameApart {taken : List String} {units : List SourceUnit} {d : Diagnostic} :
    d ∈ (nameApart taken units).2 ↔
      ∃ e ∈ namedPairs taken units, e.2.name ≠ e.1.name ∧ d = e.1.duplicate := by
  induction units generalizing taken with
  | nil => simp [nameApart, namedPairs]
  | cons u units ih =>
    rw [nameApart, namedPairs_cons]
    split
    · simp only [List.mem_cons, exists_eq_or_imp, ih, distinctName_ne, ne_eq, not_false_eq_true,
        true_and]
    · simp only [List.mem_cons, exists_eq_or_imp, ih, ne_eq, not_true_eq_false, false_and, false_or]

end SourceUnit

/-! ## Projects -/

instance : Std.LawfulEqCmp Diagnostic.compare where
  eq_of_compare := Diagnostic.eq_of_compare_eq

namespace Project

/-- The units that a project is made of, with what becomes of them. -/
def unitPairs (units : List SourceUnit) : List (SourceUnit × SourceUnit) :=
  let named := SourceUnit.namedPairs [] (sortBy SourceUnit.compareByPath units)
  sortBy (fun e e' => SourceUnit.compareByName e.2 e'.2)
    (named.map fun e => (e.1, e.2.inherit (.ofUnits (named.map Prod.snd))))

variable (units : List SourceUnit) (notes : List Diagnostic)

theorem map_fst_unitPairs : ((unitPairs units).map Prod.fst).Perm units := by
  have hfst (named : List (SourceUnit × SourceUnit)) (t : RoleTable) :
      (named.map fun e => (e.1, e.2.inherit t)).map Prod.fst = named.map Prod.fst := by
    rw [List.map_map]
    rfl
  refine ((sortBy_perm _ _).map Prod.fst).trans ?_
  rw [hfst, SourceUnit.map_fst_namedPairs]
  exact sortBy_perm _ units

theorem map_snd_unitPairs : (unitPairs units).map Prod.snd = (assemble units notes).units := by
  have hsnd (named : List (SourceUnit × SourceUnit)) (t : RoleTable) :
      (named.map fun e => (e.1, e.2.inherit t)).map Prod.snd =
        (named.map Prod.snd).map (·.inherit t) := by
    rw [List.map_map, List.map_map]
    rfl
  have hsort (pairs : List (SourceUnit × SourceUnit)) :
      (sortBy (fun e e' => SourceUnit.compareByName e.2 e'.2) pairs).map Prod.snd =
        sortBy SourceUnit.compareByName (pairs.map Prod.snd) :=
    List.map_mergeSort fun _ _ _ _ => rfl
  rw [unitPairs, hsort, hsnd, SourceUnit.map_snd_namedPairs]
  rfl

variable {units}

theorem mem_unitPairs_iff {e : SourceUnit × SourceUnit} :
    e ∈ unitPairs units ↔
      ∃ d ∈ SourceUnit.namedPairs [] (sortBy SourceUnit.compareByPath units),
        (d.1, d.2.inherit (.ofUnits ((SourceUnit.namedPairs []
          (sortBy SourceUnit.compareByPath units)).map Prod.snd))) = e := by
  rw [unitPairs, mem_sortBy, List.mem_map]

/-- What becomes of a unit is the unit under some name, with the roles of ancestors. -/
theorem exists_inherit_of_mem_unitPairs {e : SourceUnit × SourceUnit} (he : e ∈ unitPairs units) :
    ∃ name t, (name = e.1.name ∨ name = e.1.distinctName) ∧
      e.2 = { e.1 with name }.inherit t := by
  obtain ⟨d, hd, rfl⟩ := mem_unitPairs_iff.mp he
  obtain ⟨heq, hname⟩ := SourceUnit.name_of_mem_namedPairs hd
  exact ⟨d.2.name, _, hname, by rw [← heq]⟩

theorem relabels_of_mem_unitPairs {e : SourceUnit × SourceUnit} (he : e ∈ unitPairs units) :
    e.1.Relabels e.2 := by
  obtain ⟨name, t, hname, heq⟩ := exists_inherit_of_mem_unitPairs he
  rw [heq]
  exact SourceUnit.relabels_inherit t hname

theorem mem_diagnostics_assemble {d : Diagnostic} :
    d ∈ (assemble units notes).diagnostics ↔
      d ∈ notes ∨ (∃ u ∈ units, d ∈ u.diagnostics) ∨
        ∃ e ∈ unitPairs units, e.2.name ≠ e.1.name ∧ d = e.1.duplicate := by
  have hunits : (∃ u ∈ (assemble units notes).units, d ∈ u.diagnostics) ↔
      ∃ u ∈ units, d ∈ u.diagnostics := by
    simp only [← map_snd_unitPairs units notes, ← (map_fst_unitPairs units).mem_iff, List.mem_map,
      exists_exists_and_eq_and]
    refine exists_congr fun e => and_congr_right fun he => ?_
    rw [← (relabels_of_mem_unitPairs he).contents]
  have hnotes : d ∈ (SourceUnit.nameApart [] (sortBy SourceUnit.compareByPath units)).2 ↔
      ∃ e ∈ unitPairs units, e.2.name ≠ e.1.name ∧ d = e.1.duplicate := by
    rw [SourceUnit.mem_notes_nameApart]
    simp only [mem_unitPairs_iff, exists_exists_and_eq_and]
    rfl
  have hall : d ∈ (assemble units notes).diagnostics ↔
      (d ∈ notes ∨ d ∈ (SourceUnit.nameApart [] (sortBy SourceUnit.compareByPath units)).2) ∨
        ∃ u ∈ (assemble units notes).units, d ∈ u.diagnostics := by
    rw [← List.mem_append, ← List.mem_flatMap, ← List.mem_append]
    exact (mem_eraseReps _).trans mem_sortBy
  rw [hall, hunits, hnotes, or_assoc, or_comm (a := ∃ e ∈ unitPairs units, _)]

/-- The units of a project are those that it was made of, but for names, roles and kinds; its
diagnostics are those that there were, and one for each unit that got another name. -/
theorem assemble_relabels (units : List SourceUnit) (notes : List Diagnostic) :
    ∃ pairs : List (SourceUnit × SourceUnit),
      (pairs.map Prod.fst).Perm units ∧ pairs.map Prod.snd = (assemble units notes).units ∧
      (∀ e ∈ pairs, e.1.Relabels e.2) ∧
      (assemble units notes).diagnostics.Nodup ∧
      ∀ d, d ∈ (assemble units notes).diagnostics ↔
        d ∈ notes ∨ (∃ u ∈ units, d ∈ u.diagnostics) ∨
          ∃ e ∈ pairs, e.2.name ≠ e.1.name ∧ d = e.1.duplicate := by
  refine ⟨unitPairs units, map_fst_unitPairs units, map_snd_unitPairs units notes, ?_, ?_, ?_⟩
  · intro e he
    exact relabels_of_mem_unitPairs he
  · exact nodup_eraseReps_sortBy _
  · intro d
    exact mem_diagnostics_assemble notes

end Project

end MigrationAudit
