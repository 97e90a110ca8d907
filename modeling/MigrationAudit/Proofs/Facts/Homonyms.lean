import MigrationAudit.Proofs.Facts.Relabeling
import MigrationAudit.Proofs.Facts.Roles
import Mathlib

/-!
# Classes that share a name

The walk that gives a class its roles starts at its name and not at the class itself. So the first
class of a name, in the order of paths, has the roles of its own line, and all others of that name
have these as well. One without ancestors may be made a form that way, and one may be kept from the
role of its own parent.
-/

namespace MigrationAudit

open Relation

namespace ClassDecl

def IsPlainRoot (c : ClassDecl) : Prop :=
  c.parent = none ∧ ¬ c.isFormLike ∧ ¬ c.isDataModule

/-- The parent of a class is the name of a single class, which is a form. -/
def HasFormParent (classes : List ClassDecl) (c : ClassDecl) : Prop :=
  ∃ parent d, c.parent = some parent ∧
    (classes.filter fun e => e.name.toLower == parent.toLower) = [d] ∧ d.isFormLike

/-- A class without ancestors is given no role, and one with a form for its parent becomes a form. -/
structure KeepsToItsLine (classes : List ClassDecl) (c after : ClassDecl) : Prop where
  plain : c.IsPlainRoot → ¬ after.isFormLike ∧ ¬ after.isDataModule
  form : c.HasFormParent classes → after.isFormLike

variable {classes : List ClassDecl} {c d : ClassDecl}

theorem IsPlainRoot.eq_of_inLine (hc : c.IsPlainRoot) (h : InLine classes c d) : d = c := by
  obtain rfl | ⟨_, ⟨parent, hparent, _⟩, _⟩ := h.cases_head
  · rfl
  · rw [hc.1] at hparent
    cases hparent

theorem HasFormParent.exists_inLine (h : c.HasFormParent classes) :
    ∃ d, InLine classes c d ∧ d.isFormLike := by
  obtain ⟨parent, d, hparent, hfilter, hform⟩ := h
  refine ⟨d, .single ⟨parent, hparent, ?_⟩, hform⟩
  rw [firstNamed?, ← List.head?_filter, hfilter, List.head?_cons]

/-- The first class of a name has the roles of its own line. -/
theorem inherit_iff_inLine (hfirst : firstNamed? classes c.name = some c) :
    ((c.inherit (.ofClasses classes)).isFormLike ↔ ∃ d, InLine classes c d ∧ d.isFormLike) ∧
      ((c.inherit (.ofClasses classes)).isDataModule ↔
        ∃ d, InLine classes c d ∧ d.isDataModule) := by
  obtain ⟨hform, hdata⟩ := inherit_iff_takesAfter classes c
  simp only [takesAfter_iff_of_first hfirst] at hform hdata
  rw [hform, hdata]
  exact ⟨or_iff_right_of_imp fun h => ⟨c, .refl, h⟩, or_iff_right_of_imp fun h => ⟨c, .refl, h⟩⟩

theorem keepsToItsLine_of_first (hfirst : firstNamed? classes c.name = some c) :
    KeepsToItsLine classes c (c.inherit (.ofClasses classes)) := by
  obtain ⟨hform, hdata⟩ := inherit_iff_inLine hfirst
  constructor
  case plain =>
    intro hplain
    rw [hform, hdata]
    constructor
    · rintro ⟨d, hline, hd⟩
      obtain rfl := hplain.eq_of_inLine hline
      exact hplain.2.1 hd
    · rintro ⟨d, hline, hd⟩
      obtain rfl := hplain.eq_of_inLine hline
      exact hplain.2.2 hd
  case form =>
    intro hparent
    exact hform.mpr hparent.exists_inLine

/-- A class keeps to its line just when the line of the first class of its name allows it. -/
theorem keepsToItsLine_iff :
    KeepsToItsLine classes c (c.inherit (.ofClasses classes)) ↔
      (c.IsPlainRoot → ∀ d, c.TakesAfter classes d → ¬ d.isFormLike ∧ ¬ d.isDataModule) ∧
        (c.HasFormParent classes → c.isFormLike ∨ ∃ d, c.TakesAfter classes d ∧ d.isFormLike) := by
  obtain ⟨hform, hdata⟩ := inherit_iff_takesAfter classes c
  constructor
  · rintro ⟨hplain, hparent⟩
    refine ⟨fun hc d hd => ?_, fun hc => hform.mp (hparent hc)⟩
    obtain ⟨hnoForm, hnoData⟩ := hplain hc
    exact ⟨fun h => hnoForm (hform.mpr (.inr ⟨d, hd, h⟩)),
      fun h => hnoData (hdata.mpr (.inr ⟨d, hd, h⟩))⟩
  · rintro ⟨hplain, hparent⟩
    refine ⟨fun hc => ⟨fun h => ?_, fun h => ?_⟩, fun hc => hform.mpr (hparent hc)⟩
    · obtain hown | ⟨d, hd, h⟩ := hform.mp h
      · exact hc.2.1 hown
      · exact (hplain hc d hd).1 h
    · obtain hown | ⟨d, hd, h⟩ := hdata.mp h
      · exact hc.2.2 hown
      · exact (hplain hc d hd).2 h

end ClassDecl

namespace Project

/-- Every class has its own roles and those of the line of the first class of its name; that first
class has those of its own line. All classes keep to their lines just when those do that come behind
another class of their name. -/
theorem roles_assemble_homonyms (units : List SourceUnit) (notes : List Diagnostic) :
    let classes := (sortBy SourceUnit.compareByPath units).flatMap (·.classes)
    ∃ after : ClassDecl → ClassDecl,
      ((assemble units notes).units.flatMap (·.classes)).Perm (classes.map after) ∧
      (∀ c ∈ classes, c.Relabels (after c) ∧
        ((after c).isFormLike ↔
          c.isFormLike ∨ ∃ d, c.TakesAfter classes d ∧ d.isFormLike) ∧
        ((after c).isDataModule ↔
          c.isDataModule ∨ ∃ d, c.TakesAfter classes d ∧ d.isDataModule)) ∧
      (∀ c ∈ classes, ClassDecl.firstNamed? classes c.name = some c →
        ((after c).isFormLike ↔ ∃ d, c.InLine classes d ∧ d.isFormLike) ∧
        ((after c).isDataModule ↔ ∃ d, c.InLine classes d ∧ d.isDataModule)) ∧
      ((∀ c ∈ classes, c.KeepsToItsLine classes (after c)) ↔
        ∀ c ∈ classes, ClassDecl.firstNamed? classes c.name ≠ some c →
          (c.IsPlainRoot → ∀ d, c.TakesAfter classes d → ¬ d.isFormLike ∧ ¬ d.isDataModule) ∧
          (c.HasFormParent classes →
            c.isFormLike ∨ ∃ d, c.TakesAfter classes d ∧ d.isFormLike)) := by
  intro classes
  refine ⟨(·.inherit (.ofClasses classes)), classes_assemble units notes, ?_, ?_, ?_, ?_⟩
  · intro c _
    exact ⟨c.relabels_inherit _, ClassDecl.inherit_iff_takesAfter classes c⟩
  · intro c _ hfirst
    exact ClassDecl.inherit_iff_inLine hfirst
  · intro hall c hc _
    exact ClassDecl.keepsToItsLine_iff.mp (hall c hc)
  · intro hbehind c hc
    by_cases hfirst : ClassDecl.firstNamed? classes c.name = some c
    · exact ClassDecl.keepsToItsLine_of_first hfirst
    · exact ClassDecl.keepsToItsLine_iff.mpr (hbehind c hc hfirst)

/-- A class without ancestors that comes behind a form of its name, and a descendant of a form that
comes behind a class of its name without ancestors. -/
theorem roles_assemble_homonyms_main :
    let base : ClassDecl := { name := "TBase", parent := some "TForm", isFormLike := true }
    let shopMain : ClassDecl := { name := "TMain", parent := some "tBase" }
    let toolMain : ClassDecl := { name := "TMAIN" }
    let shop (path : String) : SourceUnit :=
      { name := "uShop", path, language := .pascal, classes := [shopMain, base] }
    let tools : SourceUnit :=
      { name := "uTools", path := "b.pas", language := .pascal, classes := [toolMain] }
    (∃ c ∈ (assemble [shop "a.pas", tools] []).units.flatMap (·.classes),
        c.name = "TMAIN" ∧ c.parent = none ∧ c.isFormLike) ∧
      ∃ c ∈ (assemble [shop "c.pas", tools] []).units.flatMap (·.classes),
        c.name = "TMain" ∧ c.parent = some "tBase" ∧ ¬ c.isFormLike := by
  intro base shopMain toolMain shop tools
  have hshopMain : "TMain".toLower = "tmain" := by cbv
  have htoolMain : "TMAIN".toLower = "tmain" := by cbv
  have hparent : "tBase".toLower = "tbase" := by cbv
  have hbase : "TBase".toLower = "tbase" := by cbv
  constructor
  · obtain ⟨after, hperm, hroles, -, -⟩ := roles_assemble_homonyms [shop "a.pas", tools] []
    have hclasses : (sortBy SourceUnit.compareByPath [shop "a.pas", tools]).flatMap (·.classes) =
        [shopMain, base, toolMain] := by cbv
    rw [hclasses] at hperm hroles
    have hmem : toolMain ∈ [shopMain, base, toolMain] := by simp
    obtain ⟨hrelabels, hform, -⟩ := hroles toolMain hmem
    have hfirst : ClassDecl.firstNamed? [shopMain, base, toolMain] toolMain.name =
        some shopMain := by
      simp [ClassDecl.firstNamed?, shopMain, toolMain, hshopMain, htoolMain]
    have hextends : ClassDecl.ExtendsFirst [shopMain, base, toolMain] shopMain base := by
      refine ⟨_, rfl, ?_⟩
      simp [ClassDecl.firstNamed?, shopMain, base, hshopMain, hparent, hbase]
    refine ⟨after toolMain, hperm.mem_iff.mpr (List.mem_map_of_mem hmem), ?_, ?_, ?_⟩
    · exact congrArg (·.name) hrelabels.contents
    · exact congrArg (·.parent) hrelabels.contents
    · exact hform.mpr (.inr ⟨base, ⟨shopMain, hfirst, .single hextends⟩, rfl⟩)
  · obtain ⟨after, hperm, hroles, -, -⟩ := roles_assemble_homonyms [shop "c.pas", tools] []
    have hclasses : (sortBy SourceUnit.compareByPath [shop "c.pas", tools]).flatMap (·.classes) =
        [toolMain, shopMain, base] := by cbv
    rw [hclasses] at hperm hroles
    have hmem : shopMain ∈ [toolMain, shopMain, base] := by simp
    obtain ⟨hrelabels, hform, -⟩ := hroles shopMain hmem
    have hfirst : ClassDecl.firstNamed? [toolMain, shopMain, base] shopMain.name =
        some toolMain := by
      simp [ClassDecl.firstNamed?, shopMain, toolMain, hshopMain, htoolMain]
    refine ⟨after shopMain, hperm.mem_iff.mpr (List.mem_map_of_mem hmem), ?_, ?_, ?_⟩
    · exact congrArg (·.name) hrelabels.contents
    · exact congrArg (·.parent) hrelabels.contents
    · intro h
      obtain hown | ⟨d, ⟨first, hd, hline⟩, hform⟩ := hform.mp h
      · exact Bool.false_ne_true hown
      · obtain rfl := Option.some.inj (hfirst.symm.trans hd)
        have hplain : toolMain.IsPlainRoot := ⟨rfl, Bool.false_ne_true, Bool.false_ne_true⟩
        obtain rfl := hplain.eq_of_inLine hline
        exact Bool.false_ne_true hform

end Project

end MigrationAudit
