import MigrationAudit.Proofs.Facts.Relabeling
import MigrationAudit.Proofs.Facts.Roles
import Mathlib

/-!
# Projects put together again

Once the units of a project are put together, nothing is left to do. The walk from a class collects
the roles of all classes that it can come to, so a class that hands on what it took over hands on
nothing new, in whatever circle its ancestors go. Units keep the order of their paths, and what every
unit notes is noted already. Only names can change once more, where two of them are still the same.
-/

namespace MigrationAudit

open Relation

/-! ## Roles -/

def ClassRoles.withMore (r : ClassRoles) (more : Bool × Bool) : ClassRoles :=
  { r with
    isFormLike := r.isFormLike || more.1
    isDataModule := r.isDataModule || more.2 }

namespace RoleTable

variable {t : RoleTable} {more : String → Bool × Bool} {name : String}

def endow (t : RoleTable) (more : String → Bool × Bool) : RoleTable :=
  t.map fun e => (e.1, e.2.withMore (more e.1))

theorem lookup_endow (t : RoleTable) (more : String → Bool × Bool) (name : String) :
    (t.endow more).lookup name = (t.lookup name).map (·.withMore (more name)) := by
  unfold endow
  induction t with
  | nil => rfl
  | cons e t ih =>
    obtain ⟨key, r⟩ := e
    rw [List.map_cons, List.lookup_cons, List.lookup_cons, ih]
    by_cases hkey : name = key
    · subst hkey
      simp
    · simp [beq_false_of_ne hkey]

theorem leads_endow : (t.endow more).Leads = t.Leads := by
  funext a b
  simp only [Leads, lookup_endow, Option.map_eq_some_iff, exists_exists_and_eq_and,
    ClassRoles.withMore]

theorem reaches_endow_iff {r : ClassRoles} :
    (t.endow more).Reaches name r ↔
      ∃ last s, ReflTransGen t.Leads name last ∧ t.lookup last = some s ∧
        s.withMore (more last) = r := by
  simp only [Reaches, leads_endow, lookup_endow, Option.map_eq_some_iff, exists_and_left]

theorem Reaches.of_walk {last : String} {r : ClassRoles} (hwalk : ReflTransGen t.Leads name last)
    (h : t.Reaches last r) : t.Reaches name r := by
  obtain ⟨next, hrest, hr⟩ := h
  exact ⟨next, hwalk.trans hrest, hr⟩

/-- A role that classes take over from those they come to comes from the same classes when all of
them have taken it over. -/
theorem exists_reaches_endow_iff {flag : ClassRoles → Bool} (part : Bool × Bool → Bool)
    (hflag : ∀ r m, flag (r.withMore m) = (flag r || part m))
    (hmore : ∀ name, part (more name) ↔ ∃ r, t.Reaches name r ∧ flag r) :
    (∃ r, (t.endow more).Reaches name r ∧ flag r) ↔ ∃ r, t.Reaches name r ∧ flag r := by
  constructor
  · rintro ⟨_, hreaches, hr⟩
    obtain ⟨last, s, hwalk, hs, rfl⟩ := reaches_endow_iff.mp hreaches
    rw [hflag, Bool.or_eq_true_iff] at hr
    rcases hr with hown | htaken
    · exact ⟨s, ⟨last, hwalk, hs⟩, hown⟩
    · -- the role comes from a class further on
      obtain ⟨r, hr, hrole⟩ := (hmore last).mp htaken
      exact ⟨r, hr.of_walk hwalk, hrole⟩
  · rintro ⟨r, ⟨last, hwalk, hr⟩, hrole⟩
    refine ⟨r.withMore (more last), reaches_endow_iff.mpr ⟨last, r, hwalk, hr, rfl⟩, ?_⟩
    rw [hflag, hrole, Bool.true_or]

/-- What a class hands on when all have taken over what they could is what it handed on before. -/
theorem inherited_endow_inherited (t : RoleTable) (name : String) :
    (t.endow t.inherited).inherited name = t.inherited name := by
  obtain ⟨hform, hdata⟩ := inherited_iff (t.endow t.inherited) name
  rw [exists_reaches_endow_iff Prod.fst (fun _ _ => rfl)
    fun name => (inherited_iff t name).1] at hform
  rw [exists_reaches_endow_iff Prod.snd (fun _ _ => rfl)
    fun name => (inherited_iff t name).2] at hdata
  apply Prod.ext
  · exact Bool.eq_iff_iff.mpr (hform.trans (inherited_iff t name).1.symm)
  · exact Bool.eq_iff_iff.mpr (hdata.trans (inherited_iff t name).2.symm)

theorem ofUnits_map_inherit (t : RoleTable) (units : List SourceUnit) :
    ofUnits (units.map (·.inherit t)) = (ofUnits units).endow t.inherited := by
  have hclasses : (units.map (·.inherit t)).flatMap (·.classes) =
      (units.flatMap (·.classes)).map (·.inherit t) := by
    rw [List.flatMap_map, List.map_flatMap]
    rfl
  rw [ofUnits_eq, ofUnits_eq, hclasses, ofClasses, ofClasses, endow, List.map_map, List.map_map]
  rfl

end RoleTable

theorem ClassDecl.inherit_inherit (t : RoleTable) (c : ClassDecl) :
    (c.inherit t).inherit (t.endow t.inherited) = c.inherit t := by
  simp only [inherit, RoleTable.inherited_endow_inherited]
  cases c.isFormLike <;> cases c.isDataModule <;> simp

/-- The kind of a unit when some of its classes are forms, or data modules. -/
def UnitKind.revise (k : UnitKind) (form data : Bool) : UnitKind :=
  if form && k != .form then .form
  else if data && UnitKind.rank .dataModule < k.rank then .dataModule
  else k

theorem UnitKind.revise_revise (k : UnitKind) (form data : Bool) :
    (k.revise form data).revise form data = k.revise form data := by
  cases form <;> cases data <;> cases k <;> rfl

namespace SourceUnit

theorem inherit_eq (t : RoleTable) (u : SourceUnit) :
    u.inherit t =
      { u with
        classes := u.classes.map (·.inherit t)
        kind := u.kind.revise ((u.classes.map (·.inherit t)).any (·.isFormLike))
          ((u.classes.map (·.inherit t)).any (·.isDataModule)) } := rfl

theorem inherit_inherit (t : RoleTable) (u : SourceUnit) :
    (u.inherit t).inherit (t.endow t.inherited) = u.inherit t := by
  have hclasses : (u.classes.map (·.inherit t)).map (·.inherit (t.endow t.inherited)) =
      u.classes.map (·.inherit t) := by
    rw [List.map_map]
    exact List.map_congr_left fun c _ => c.inherit_inherit t
  rw [inherit_eq (t.endow t.inherited), inherit_eq t u]
  simp only [hclasses, UnitKind.revise_revise]

end SourceUnit

/-! ## Names -/

namespace SourceUnit

/-- Units whose names differ in lower case, from one another and from those taken, keep them. -/
theorem nameApart_eq_self {taken : List String} {units : List SourceUnit}
    (hnames : (units.map (·.name.toLower)).Nodup)
    (htaken : ∀ u ∈ units, u.name.toLower ∉ taken) : nameApart taken units = (units, []) := by
  induction units generalizing taken with
  | nil => rfl
  | cons u units ih =>
    obtain ⟨hfirst, hnames⟩ := List.nodup_cons.mp hnames
    obtain ⟨hu, htaken⟩ := List.forall_mem_cons.mp htaken
    have hrest : ∀ v ∈ units, v.name.toLower ∉ u.name.toLower :: taken := by
      intro v hv
      rw [List.mem_cons, not_or]
      exact ⟨fun heq => hfirst (List.mem_map.mpr ⟨v, hv, heq⟩), htaken v hv⟩
    rw [nameApart, if_neg (by simpa using hu), ih hnames hrest]

/-! ## Order -/

/-- Units of different paths that are in order stay so whatever else becomes of them. -/
theorem pairwise_compareByPath_of_map_path {units units' : List SourceUnit}
    (hpaths : units'.map (·.path) = units.map (·.path)) (hdistinct : (units.map (·.path)).Nodup)
    (h : units.Pairwise fun u v => (u.compareByPath v).isLE) :
    units'.Pairwise fun u v => (u.compareByPath v).isLE := by
  -- where paths differ the names are not looked at
  have hlt : (units.map (·.path)).Pairwise fun p q => compare p q = .lt := by
    refine List.pairwise_map.mpr ((List.pairwise_map.mp hdistinct).imp₂ ?_ h)
    intro u v hne hle
    simp only [compareByPath, compareLex, compareOn] at hle
    cases hcompare : compare u.path v.path with
    | lt => rfl
    | eq => exact absurd (Std.LawfulEqCmp.eq_of_compare hcompare) hne
    | gt => simp [hcompare] at hle
  rw [← hpaths, List.pairwise_map] at hlt
  refine hlt.imp fun {u v} huv => ?_
  simp [compareByPath, compareLex, compareOn, huv]

end SourceUnit

namespace Project

variable {units : List SourceUnit} (notes : List Diagnostic)

/-- What becomes of units in the order of their paths. -/
def settledUnits (units : List SourceUnit) : List SourceUnit :=
  let named := (SourceUnit.nameApart [] (sortBy SourceUnit.compareByPath units)).1
  named.map (·.inherit (.ofUnits named))

theorem units_assemble :
    (assemble units notes).units = sortBy SourceUnit.compareByName (settledUnits units) := rfl

/-- A project whose units, in the order of their paths, have got their names. -/
theorem assemble_of_nameApart {named : List SourceUnit} {renamings : List Diagnostic}
    (h : SourceUnit.nameApart [] (sortBy SourceUnit.compareByPath units) = (named, renamings)) :
    assemble units notes =
      let placed := sortBy SourceUnit.compareByName (named.map (·.inherit (.ofUnits named)))
      { schemaVersion := MigrationAudit.schemaVersion
        units := placed
        summary := .ofUnits placed
        diagnostics := (sortBy Diagnostic.compare
          (notes ++ renamings ++ placed.flatMap (·.diagnostics))).eraseReps } := by
  rw [assemble, h]

theorem map_path_settledUnits :
    (settledUnits units).map (·.path) = (sortBy SourceUnit.compareByPath units).map (·.path) := by
  rw [settledUnits, List.map_map]
  exact SourceUnit.map_nameApart (fun _ _ => rfl) [] _

theorem sortBy_units_assemble (hpaths : (units.map (·.path)).Nodup) :
    sortBy SourceUnit.compareByPath (assemble units notes).units = settledUnits units := by
  have hsorted : ((sortBy SourceUnit.compareByPath units).map (·.path)).Nodup :=
    ((sortBy_perm _ units).map _).nodup_iff.mpr hpaths
  have hdistinct : ((assemble units notes).units.map fun u => (u.path, u.name)).Nodup := by
    apply List.Nodup.of_map Prod.fst
    rw [List.map_map]
    exact (map_path_assemble units notes).nodup_iff.mpr hpaths
  rw [SourceUnit.sortBy_compareByPath_of_perm
    (.trans (.of_eq (units_assemble notes)) (sortBy_perm _ _)) hdistinct]
  exact sortBy_eq_self (SourceUnit.pairwise_compareByPath_of_map_path map_path_settledUnits hsorted
    (pairwise_sortBy _ units))

/-- Units whose names differ are given no other names and no further roles. -/
theorem nameApart_settledUnits
    (hnames : ((assemble units notes).units.map (·.name.toLower)).Nodup) :
    SourceUnit.nameApart [] (settledUnits units) = (settledUnits units, []) := by
  apply SourceUnit.nameApart_eq_self
  · exact ((sortBy_perm _ _).map _).nodup_iff.mp hnames
  · exact fun _ _ => List.not_mem_nil

theorem map_inherit_settledUnits :
    (settledUnits units).map (·.inherit (.ofUnits (settledUnits units))) = settledUnits units := by
  rw [settledUnits, RoleTable.ofUnits_map_inherit, List.map_map]
  exact List.map_congr_left fun u _ => u.inherit_inherit _

/-- A project whose names differ is what its own units and diagnostics are put together to. -/
theorem assemble_assemble (hpaths : (units.map (·.path)).Nodup)
    (hnames : ((assemble units notes).units.map (·.name.toLower)).Nodup) :
    assemble (assemble units notes).units (assemble units notes).diagnostics =
      assemble units notes := by
  have hdiagnostics :
      (sortBy Diagnostic.compare ((assemble units notes).diagnostics ++ [] ++
        (assemble units notes).units.flatMap (·.diagnostics))).eraseReps =
        (assemble units notes).diagnostics := by
    apply eraseReps_sortBy_eq_of_mem_iff
    intro d
    -- what a unit notes is among the diagnostics already
    have hmem : d ∈ (assemble units notes).units.flatMap (·.diagnostics) →
        d ∈ (assemble units notes).diagnostics := by
      intro hd
      refine (mem_eraseReps _).mpr (mem_sortBy.mpr (List.mem_append_right _ hd))
    rw [List.append_nil, List.mem_append, or_iff_left_of_imp hmem]
    exact (mem_eraseReps _).trans mem_sortBy
  have hnamed : SourceUnit.nameApart []
      (sortBy SourceUnit.compareByPath (assemble units notes).units) = (settledUnits units, []) := by
    rw [sortBy_units_assemble notes hpaths, nameApart_settledUnits notes hnames]
  rw [assemble_of_nameApart _ hnamed, map_inherit_settledUnits, ← units_assemble notes]
  simp only [hdiagnostics]
  rfl

/-- Two classes that extend each other, one of them of a name that comes up once more, in units of
one name. -/
theorem assemble_assemble_circle :
    let main : ClassDecl := { name := "TMain", parent := some "TBase" }
    let base : ClassDecl := { name := "TBASE", parent := some "tMain", isFormLike := true }
    let other : ClassDecl := { name := "TMAIN", isDataModule := true }
    let unread : Diagnostic := { path := "c.pas", kind := .inputError, reason := "unreadable" }
    let shop : SourceUnit :=
      { name := "uMain", path := "a.pas", language := .pascal, classes := [main] }
    let tools : SourceUnit :=
      { name := "UMAIN", path := "b.pas", language := .pascal, classes := [other, base] }
    let project := assemble [tools, shop] [unread, unread]
    ([tools, shop].map (·.path)).Nodup ∧ (project.units.map (·.name.toLower)).Nodup ∧
      assemble project.units project.diagnostics = project := by
  intro main base other unread shop tools project
  have hpaths : ([tools, shop].map (·.path)).Nodup := by decide
  have hsorted : sortBy SourceUnit.compareByPath [tools, shop] = [shop, tools] := by
    rw [SourceUnit.sortBy_compareByPath_of_perm (.swap shop tools []) (by decide)]
    apply sortBy_eq_self
    simp only [List.pairwise_cons, List.mem_singleton, forall_eq]
    decide
  have hshop : shop.name.toLower = "umain" := by cbv
  have htools : tools.name.toLower = "umain" := by cbv
  have hrenamed : tools.distinctName.toLower = "umain@b.pas" := by
    rw [← String.toList_inj, Text.toList_toLower, SourceUnit.toList_distinctName]
    decide
  have hgiven {u v : SourceUnit} (h : v.name.toLower = u.name.toLower) :
      SourceUnit.givenNames [u, v] = [u.name, v.distinctName] := by
    simp [SourceUnit.givenNames, SourceUnit.nameApart, h]
  have hnames : (project.units.map (·.name.toLower)).Nodup := by
    have hperm := (map_name_assemble [tools, shop] [unread, unread]).map String.toLower
    rw [hsorted, hgiven (htools.trans hshop.symm), List.map_map, List.map_cons, List.map_cons,
      hshop, hrenamed] at hperm
    exact hperm.nodup_iff.mpr (by decide)
  exact ⟨hpaths, hnames, assemble_assemble [unread, unread] hpaths hnames⟩

end Project

end MigrationAudit
