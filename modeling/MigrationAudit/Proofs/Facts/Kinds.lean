import MigrationAudit.Proofs.Facts.Relabeling

/-!
# Kinds of units

A unit is a form or a data module by its classes alone. Each language sees to that when a file is
read: Pascal looks at the classes first, and Java gives no class such a role. When roles are taken
over from ancestors, they only grow, and the kind of a unit follows them.
-/

namespace MigrationAudit

/-- A unit is a form if one of its classes is, and a data module if one of them is and none is a
form. -/
structure SourceUnit.HasKindOfClasses (u : SourceUnit) : Prop where
  form : u.kind = .form ↔ ∃ c ∈ u.classes, c.isFormLike
  dataModule : u.kind = .dataModule ↔
    (∀ c ∈ u.classes, ¬ c.isFormLike) ∧ ∃ c ∈ u.classes, c.isDataModule

/-! ## Files -/

namespace Pascal

variable {s : ExtractionSettings} {path : String} {classes : List ClassDecl}
  {header : Option FileKind}

theorem unitKind_eq_form_iff :
    unitKind s path classes header = .form ↔ ∃ c ∈ classes, c.isFormLike := by
  rw [← List.any_eq_true, unitKind]
  cases classes.any (·.isFormLike) with
  | true => exact iff_of_true rfl rfl
  | false => grind

theorem unitKind_eq_dataModule_iff :
    unitKind s path classes header = .dataModule ↔
      (∀ c ∈ classes, ¬ c.isFormLike) ∧ ∃ c ∈ classes, c.isDataModule := by
  have hnone : (∀ c ∈ classes, ¬ c.isFormLike) ↔ ¬ classes.any (·.isFormLike) := by
    rw [List.any_eq_true]
    push Not
    rfl
  rw [hnone, ← List.any_eq_true, unitKind]
  cases classes.any (·.isFormLike) with
  | true => exact iff_of_false UnitKind.noConfusion fun h => h.1 rfl
  | false =>
    cases classes.any (·.isDataModule) with
    | true => exact iff_of_true rfl ⟨Bool.false_ne_true, rfl⟩
    | false => grind

theorem hasKindOfClasses_readUnit (s : ExtractionSettings) (path text : String) :
    (readUnit s path text).HasKindOfClasses :=
  ⟨unitKind_eq_form_iff, unitKind_eq_dataModule_iff⟩

end Pascal

theorem Java.roles_readUnit (s : ExtractionSettings) (path text : String) :
    ∀ c ∈ (readUnit s path text).classes, ¬ c.isFormLike ∧ ¬ c.isDataModule := by
  intro c hc
  obtain ⟨d, hd, rfl⟩ := List.mem_map.mp hc
  obtain ⟨r, hr, rfl⟩ := List.mem_map.mp hd
  obtain ⟨t, _, rfl⟩ := List.mem_map.mp hr
  exact ⟨Bool.false_ne_true, Bool.false_ne_true⟩

namespace SourceUnit

variable {u : SourceUnit}

theorem hasKindOfClasses_of_plain (hclasses : ∀ c ∈ u.classes, ¬ c.isFormLike ∧ ¬ c.isDataModule)
    (hform : u.kind ≠ .form) (hdata : u.kind ≠ .dataModule) : u.HasKindOfClasses := by
  constructor
  case form =>
    refine iff_of_false hform ?_
    rintro ⟨c, hc, h⟩
    exact (hclasses c hc).1 h
  case dataModule =>
    refine iff_of_false hdata ?_
    rintro ⟨-, c, hc, h⟩
    exact (hclasses c hc).2 h

end SourceUnit

theorem Java.hasKindOfClasses_readUnit (s : ExtractionSettings) (path text : String) :
    (readUnit s path text).HasKindOfClasses := by
  have hkind (isDeclared : Bool) :
      unitKind s path isDeclared ≠ .form ∧ unitKind s path isDeclared ≠ .dataModule := by
    unfold unitKind
    split
    · decide
    · split
      · decide
      · split <;> decide
  exact SourceUnit.hasKindOfClasses_of_plain (roles_readUnit s path text) (hkind _).1 (hkind _).2

theorem hasKindOfClasses_readUnit (s : ExtractionSettings) (path text : String) :
    (readUnit s path text).HasKindOfClasses := by
  unfold readUnit
  split
  · exact Pascal.hasKindOfClasses_readUnit s path text
  · exact Java.hasKindOfClasses_readUnit s path text
  · apply SourceUnit.hasKindOfClasses_of_plain
    · exact List.forall_mem_nil _
    · exact UnitKind.noConfusion
    · exact UnitKind.noConfusion

/-! ## Projects -/

namespace SourceUnit

variable {u : SourceUnit} (t : RoleTable)

theorem kind_inherit_of_form (h : ∃ c ∈ (u.inherit t).classes, c.isFormLike) :
    (u.inherit t).kind = .form := by
  have hany : (u.classes.map (·.inherit t)).any (·.isFormLike) := List.any_eq_true.mpr h
  cases hkind : u.kind <;> simp [inherit, hany, hkind, UnitKind.rank]

theorem kind_inherit_of_dataModule (hkind : u.kind ≠ .form)
    (hform : ¬ ∃ c ∈ (u.inherit t).classes, c.isFormLike)
    (h : ∃ c ∈ (u.inherit t).classes, c.isDataModule) : (u.inherit t).kind = .dataModule := by
  have hany : (u.classes.map (·.inherit t)).any (·.isDataModule) := List.any_eq_true.mpr h
  have hnone : (u.classes.map (·.inherit t)).any (·.isFormLike) = false := by
    simpa [inherit] using hform
  cases hk : u.kind <;> simp_all [inherit, UnitKind.rank]

theorem kind_inherit_of_plain (hform : ¬ ∃ c ∈ (u.inherit t).classes, c.isFormLike)
    (hdata : ¬ ∃ c ∈ (u.inherit t).classes, c.isDataModule) : (u.inherit t).kind = u.kind := by
  have hnone : (u.classes.map (·.inherit t)).any (·.isFormLike) = false := by
    simpa [inherit] using hform
  have hnone' : (u.classes.map (·.inherit t)).any (·.isDataModule) = false := by
    simpa [inherit] using hdata
  simp [inherit, hnone, hnone']

/-- The kind of a unit follows the roles that its classes take over. -/
theorem HasKindOfClasses.inherit (h : u.HasKindOfClasses) : (u.inherit t).HasKindOfClasses := by
  -- classes only gain roles, so a role that none has afterwards was not there before
  have hform (hnone : ¬ ∃ c ∈ (u.inherit t).classes, c.isFormLike) : u.kind ≠ .form := by
    intro hkind
    obtain ⟨c, hc, hcform⟩ := h.form.mp hkind
    exact hnone ⟨_, List.mem_map_of_mem hc, (c.relabels_inherit t).form hcform⟩
  have hdata (hnone : ¬ ∃ c ∈ (u.inherit t).classes, c.isDataModule) : u.kind ≠ .dataModule := by
    intro hkind
    obtain ⟨c, hc, hcdata⟩ := (h.dataModule.mp hkind).2
    exact hnone ⟨_, List.mem_map_of_mem hc, (c.relabels_inherit t).dataModule hcdata⟩
  by_cases hsomeForm : ∃ c ∈ (u.inherit t).classes, c.isFormLike
  case pos =>
    have hkind := kind_inherit_of_form t hsomeForm
    constructor
    case form => exact iff_of_true hkind hsomeForm
    case dataModule =>
      apply iff_of_false
      · rw [hkind]
        exact UnitKind.noConfusion
      · rintro ⟨hnone, -⟩
        obtain ⟨c, hc, hcform⟩ := hsomeForm
        exact hnone c hc hcform
  case neg =>
    by_cases hsomeData : ∃ c ∈ (u.inherit t).classes, c.isDataModule
    case pos =>
      have hkind := kind_inherit_of_dataModule t (hform hsomeForm) hsomeForm hsomeData
      constructor
      case form =>
        apply iff_of_false _ hsomeForm
        rw [hkind]
        exact UnitKind.noConfusion
      case dataModule => exact iff_of_true hkind ⟨fun c hc h => hsomeForm ⟨c, hc, h⟩, hsomeData⟩
    case neg =>
      have hkind := kind_inherit_of_plain t hsomeForm hsomeData
      constructor
      case form => exact iff_of_false (hkind ▸ hform hsomeForm) hsomeForm
      case dataModule => exact iff_of_false (hkind ▸ hdata hsomeData) fun h => hsomeData h.2

end SourceUnit

namespace Project

theorem hasKindOfClasses_assemble {units : List SourceUnit} (notes : List Diagnostic)
    (h : ∀ u ∈ units, u.HasKindOfClasses) {u : SourceUnit}
    (hu : u ∈ (assemble units notes).units) : u.HasKindOfClasses := by
  rw [← map_snd_unitPairs] at hu
  obtain ⟨e, he, rfl⟩ := List.mem_map.mp hu
  have hmem : e.1 ∈ units := (map_fst_unitPairs units).mem_iff.mp (List.mem_map_of_mem he)
  obtain ⟨name, t, -, heq⟩ := exists_inherit_of_mem_unitPairs he
  have hnamed : { e.1 with name }.HasKindOfClasses := ⟨(h _ hmem).form, (h _ hmem).dataModule⟩
  rw [heq]
  exact hnamed.inherit t

end Project

/-- The units of a project are forms and data modules by their classes, whatever files it is read
from. -/
theorem kind_readProject (s : ExtractionSettings) {files : List (String × String)} {u : SourceUnit}
    (hu : u ∈ (readProject s files).units) : u.HasKindOfClasses := by
  apply Project.hasKindOfClasses_assemble [] _ hu
  intro v hv
  obtain ⟨f, _, rfl⟩ := List.mem_map.mp hv
  exact hasKindOfClasses_readUnit s f.1 f.2

/-- A form in another file than its ancestor. -/
theorem kind_readProject_order :
    let files :=
      [("OrderForm.pas", "type TOrderForm = class(TBaseForm) end;"), ("Order.java", "class Order {}"),
        ("BaseForm.pas", "type TBaseForm = class(TForm) end;"), ("order.txt", "")]
    ∃ u ∈ (readProject {} files).units, u.path = "OrderForm.pas" ∧ u.HasKindOfClasses := by
  intro files
  have hmem : "OrderForm.pas" ∈ (readProject {} files).units.map (·.path) := by
    apply (Project.map_path_assemble _ _).mem_iff.mpr
    rw [List.map_map]
    exact List.mem_map.mpr ⟨_, List.mem_cons_self, path_readUnit {} _ _⟩
  obtain ⟨u, hu, hpath⟩ := List.mem_map.mp hmem
  exact ⟨u, hu, hpath, kind_readProject {} hu⟩

end MigrationAudit
