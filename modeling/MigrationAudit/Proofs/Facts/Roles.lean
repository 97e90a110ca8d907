import MigrationAudit.Proofs.Facts.Assembly
import Mathlib

/-!
# Roles of ancestors

The walk from a class to its parents leaves out each class that it has passed. Nothing is lost by
that: whatever can be reached through a class again can be reached from it at once. The walk goes by
names, and of the classes of one name the first one counts. Where no two classes share a name, the
roles that a class has after the units are put together are those of all classes that it descends
from.
-/

namespace MigrationAudit

open Relation

/-! ## Walks through a table -/

namespace RoleTable

variable {t : RoleTable} {name next : String} {r : ClassRoles}

def Leads (t : RoleTable) (name next : String) : Prop :=
  ∃ r, t.lookup name = some r ∧ r.parent = some next

/-- The roles are those of a class that a name leads to. -/
def Reaches (t : RoleTable) (name : String) (r : ClassRoles) : Prop :=
  ∃ last, ReflTransGen t.Leads name last ∧ t.lookup last = some r

theorem lookup_forget (t : RoleTable) (name next : String) :
    (t.forget name).lookup next = if next = name then none else t.lookup next := by
  rw [forget, lookup_filter (· != name)]
  by_cases h : next = name <;> simp [h]

theorem lookup_forget_eq_some_iff :
    (t.forget name).lookup next = some r ↔ next ≠ name ∧ t.lookup next = some r := by
  rw [lookup_forget]
  split <;> simp [*]

theorem leads_of_forget {a b : String} (h : (t.forget name).Leads a b) : t.Leads a b := by
  obtain ⟨r, hlookup, hparent⟩ := h
  exact ⟨r, (lookup_forget_eq_some_iff.mp hlookup).2, hparent⟩

/-- A walk from a class ends there, or goes on from its parent without coming back. -/
theorem reflTransGen_leads_cases (hname : t.lookup name = some r) {last : String}
    (h : ReflTransGen t.Leads name last) :
    last = name ∨ ∃ parent, r.parent = some parent ∧
      ReflTransGen (t.forget name).Leads parent last := by
  induction h with
  | refl => exact .inl rfl
  | @tail a b _ hstep ih =>
    obtain ⟨s, hlookup, hparent⟩ := hstep
    by_cases ha : a = name
    · subst ha
      obtain rfl := Option.some.inj (hlookup.symm.trans hname)
      exact .inr ⟨b, hparent, .refl⟩
    · obtain rfl | ⟨parent, hp, hwalk⟩ := ih
      · exact absurd rfl ha
      · have hlookup' := lookup_forget_eq_some_iff.mpr ⟨ha, hlookup⟩
        exact .inr ⟨parent, hp, hwalk.tail ⟨s, hlookup', hparent⟩⟩

theorem reaches_iff_of_lookup (hname : t.lookup name = some r) {s : ClassRoles} :
    t.Reaches name s ↔
      s = r ∨ ∃ parent, r.parent = some parent ∧ (t.forget name).Reaches parent s := by
  constructor
  · rintro ⟨last, hwalk, hlast⟩
    by_cases hself : last = name
    · subst hself
      exact .inl (Option.some.inj (hlast.symm.trans hname))
    · obtain rfl | ⟨parent, hparent, hrest⟩ := reflTransGen_leads_cases hname hwalk
      · exact absurd rfl hself
      · exact .inr ⟨parent, hparent, last, hrest, lookup_forget_eq_some_iff.mpr ⟨hself, hlast⟩⟩
  · rintro (rfl | ⟨parent, hparent, last, hwalk, hlast⟩)
    · exact ⟨name, .refl, hname⟩
    · have hrest : ReflTransGen t.Leads parent last :=
        ReflTransGen.mono (fun _ _ => leads_of_forget) _ _ hwalk
      exact ⟨last, .head ⟨r, hname, hparent⟩ hrest, (lookup_forget_eq_some_iff.mp hlast).2⟩

theorem not_reaches_of_lookup (hname : t.lookup name = none) : ¬ t.Reaches name r := by
  rintro ⟨last, hwalk, hlast⟩
  obtain rfl | ⟨next, ⟨s, hlookup, -⟩, -⟩ := hwalk.cases_head
  · simp [hname] at hlast
  · simp [hname] at hlookup

/-- A name takes over the roles of all classes that it leads to. -/
theorem inherited_iff (t : RoleTable) (name : String) :
    ((t.inherited name).1 ↔ ∃ r, t.Reaches name r ∧ r.isFormLike) ∧
      ((t.inherited name).2 ↔ ∃ r, t.Reaches name r ∧ r.isDataModule) := by
  fun_induction inherited t name with
  | case1 t name h => simp [not_reaches_of_lookup h]
  | case2 t name r h hparent => simp [reaches_iff_of_lookup h, hparent]
  | case3 t name r h parent hparent form data heq ih =>
    rw [heq] at ih
    simp [reaches_iff_of_lookup h, hparent, ih.1, ih.2]

end RoleTable

/-! ## Lines of classes -/

namespace ClassDecl

def roles (c : ClassDecl) : ClassRoles :=
  ⟨c.parent.map String.toLower, c.isFormLike, c.isDataModule⟩

/-- The first of some classes with a name, whatever the case of its letters. -/
def firstNamed? (classes : List ClassDecl) (name : String) : Option ClassDecl :=
  classes.find? fun c => c.name.toLower == name.toLower

/-- A class is the first one of the name that another class gives as its parent. -/
def ExtendsFirst (classes : List ClassDecl) (c d : ClassDecl) : Prop :=
  ∃ parent, c.parent = some parent ∧ firstNamed? classes parent = some d

/-- A class is in the line of another one: it is the class itself, or can be reached from it through
the first classes of the names of parents. -/
def InLine (classes : List ClassDecl) : ClassDecl → ClassDecl → Prop :=
  ReflTransGen (ExtendsFirst classes)

/-- A class is in the line of the first class that has the name of another one. -/
def TakesAfter (classes : List ClassDecl) (c d : ClassDecl) : Prop :=
  ∃ first, firstNamed? classes c.name = some first ∧ InLine classes first d

variable {classes : List ClassDecl} {c d : ClassDecl} {name : String}

theorem firstNamed?_self (h : firstNamed? classes name = some d) :
    firstNamed? classes d.name = some d := by
  have hname : d.name.toLower = name.toLower := by simpa using List.find?_some h
  rw [firstNamed?, hname]
  exact h

theorem exists_firstNamed? (hc : c ∈ classes) (hname : c.name.toLower = name.toLower) :
    ∃ d, firstNamed? classes name = some d := by
  apply Option.isSome_iff_exists.mp
  exact List.find?_isSome.mpr ⟨c, hc, beq_of_eq hname⟩

theorem ExtendsFirst.firstNamed? (h : ExtendsFirst classes c d) :
    firstNamed? classes d.name = some d := by
  obtain ⟨_, _, hfirst⟩ := h
  exact firstNamed?_self hfirst

theorem takesAfter_iff_of_first (hfirst : firstNamed? classes c.name = some c) :
    TakesAfter classes c d ↔ InLine classes c d := by
  simp [TakesAfter, hfirst]

end ClassDecl

namespace RoleTable

open ClassDecl

variable {classes : List ClassDecl} {c : ClassDecl} {r : ClassRoles}

def ofClasses (classes : List ClassDecl) : RoleTable :=
  classes.map fun c => (c.name.toLower, c.roles)

theorem ofClasses_cons (c : ClassDecl) (classes : List ClassDecl) :
    ofClasses (c :: classes) = (c.name.toLower, c.roles) :: ofClasses classes := rfl

theorem ofUnits_eq (units : List SourceUnit) :
    ofUnits units = ofClasses (units.flatMap (·.classes)) := by
  simp only [ofUnits, ofClasses, List.map_flatMap]
  rfl

theorem lookup_ofClasses (classes : List ClassDecl) (key : String) :
    (ofClasses classes).lookup key = (classes.find? fun c => c.name.toLower == key).map roles := by
  induction classes with
  | nil => rfl
  | cons c classes ih =>
    rw [ofClasses_cons, List.lookup_cons, List.find?_cons, BEq.comm]
    cases c.name.toLower == key
    · exact ih
    · rfl

/-- The name of a class leads to the line of the first class of that name. -/
theorem reaches_iff_takesAfter :
    (ofClasses classes).Reaches c.name.toLower r ↔ ∃ d, c.TakesAfter classes d ∧ d.roles = r := by
  constructor
  · rintro ⟨last, hwalk, hlast⟩
    induction hwalk generalizing r with
    | refl =>
      rw [lookup_ofClasses] at hlast
      obtain ⟨first, hfirst, rfl⟩ := Option.map_eq_some_iff.mp hlast
      exact ⟨first, ⟨first, hfirst, .refl⟩, rfl⟩
    | tail _ hstep ih =>
      obtain ⟨s, hs, hparent⟩ := hstep
      obtain ⟨d, ⟨first, hfirst, hline⟩, rfl⟩ := ih hs
      rw [lookup_ofClasses] at hlast
      obtain ⟨e, he, rfl⟩ := Option.map_eq_some_iff.mp hlast
      obtain ⟨parent, hp, rfl⟩ := Option.map_eq_some_iff.mp hparent
      exact ⟨e, ⟨first, hfirst, hline.tail ⟨parent, hp, he⟩⟩, rfl⟩
  · rintro ⟨d, ⟨first, hfirst, hline⟩, rfl⟩
    -- every class of the line is the first one of its name, so the table holds its roles
    have hlookup {e : ClassDecl} (he : firstNamed? classes e.name = some e) :
        (ofClasses classes).lookup e.name.toLower = some e.roles := by
      rw [lookup_ofClasses, ← firstNamed?, he, Option.map_some]
    have hname : first.name.toLower = c.name.toLower := by simpa using List.find?_some hfirst
    have hwalk : firstNamed? classes d.name = some d ∧
        ReflTransGen (ofClasses classes).Leads c.name.toLower d.name.toLower := by
      induction hline with
      | refl =>
        rw [hname]
        exact ⟨firstNamed?_self hfirst, .refl⟩
      | @tail d e _ hstep ih =>
        obtain ⟨hd, hwalk⟩ := ih
        have he := hstep.firstNamed?
        obtain ⟨parent, hparent, hfound⟩ := hstep
        have hlower : e.name.toLower = parent.toLower := by simpa using List.find?_some hfound
        refine ⟨he, hwalk.tail ⟨d.roles, hlookup hd, ?_⟩⟩
        rw [roles, hparent, hlower]
        rfl
    exact ⟨_, hwalk.2, hlookup hwalk.1⟩

end RoleTable

namespace ClassDecl

/-- What a class takes over from other classes, however many share a name. -/
theorem inherit_iff_takesAfter (classes : List ClassDecl) (c : ClassDecl) :
    ((c.inherit (.ofClasses classes)).isFormLike ↔
        c.isFormLike ∨ ∃ d, c.TakesAfter classes d ∧ d.isFormLike) ∧
      ((c.inherit (.ofClasses classes)).isDataModule ↔
        c.isDataModule ∨ ∃ d, c.TakesAfter classes d ∧ d.isDataModule) := by
  have hreaches (flag : ClassRoles → Bool) :
      (∃ r, RoleTable.Reaches (.ofClasses classes) c.name.toLower r ∧ flag r) ↔
        ∃ d, c.TakesAfter classes d ∧ flag d.roles := by
    simp only [RoleTable.reaches_iff_takesAfter]
    constructor
    · rintro ⟨_, ⟨d, hd, rfl⟩, hflag⟩
      exact ⟨d, hd, hflag⟩
    · rintro ⟨d, hd, hflag⟩
      exact ⟨d.roles, ⟨d, hd, rfl⟩, hflag⟩
  obtain ⟨hform, hdata⟩ := RoleTable.inherited_iff (.ofClasses classes) c.name.toLower
  rw [hreaches (·.isFormLike)] at hform
  rw [hreaches (·.isDataModule)] at hdata
  simp only [inherit, Bool.or_eq_true, hform, hdata]
  exact ⟨Iff.rfl, Iff.rfl⟩

/-! ## Classes of different names -/

/-- A class of some classes is the parent that another one names. -/
def Extends (classes : List ClassDecl) (c d : ClassDecl) : Prop :=
  d ∈ classes ∧ ∃ parent, c.parent = some parent ∧ parent.toLower = d.name.toLower

/-- A class is another one, or can be reached from it through parents among some classes. -/
def Descends (classes : List ClassDecl) : ClassDecl → ClassDecl → Prop :=
  ReflTransGen (Extends classes)

theorem descends_of_perm {classes classes' : List ClassDecl} (h : classes.Perm classes') :
    Descends classes = Descends classes' := by
  unfold Descends Extends
  simp only [h.mem_iff]

section DistinctNames

variable {classes : List ClassDecl} (hnames : (classes.map (·.name.toLower)).Nodup)
  {c d : ClassDecl}
include hnames

theorem firstNamed?_eq_some_iff {name : String} :
    firstNamed? classes name = some d ↔ d ∈ classes ∧ name.toLower = d.name.toLower := by
  constructor
  · intro h
    have hname : d.name.toLower = name.toLower := by simpa using List.find?_some h
    exact ⟨List.mem_of_find?_eq_some h, hname.symm⟩
  · rintro ⟨hd, hname⟩
    obtain ⟨e, he⟩ := exists_firstNamed? hd hname.symm
    have hlower : e.name.toLower = name.toLower := by simpa using List.find?_some he
    rw [he, List.inj_on_of_nodup_map hnames (List.mem_of_find?_eq_some he) hd
      (hlower.trans hname)]

theorem inLine_eq_descends : InLine classes = Descends classes := by
  have hextends : ExtendsFirst classes = Extends classes := by
    funext c d
    simp only [ExtendsFirst, Extends, firstNamed?_eq_some_iff hnames, and_left_comm,
      exists_and_left]
  rw [InLine, hextends]
  rfl

/-- What a class of some classes takes over from those that it descends from. -/
theorem inherit_iff (hc : c ∈ classes) :
    ((c.inherit (.ofClasses classes)).isFormLike ↔ ∃ d, Descends classes c d ∧ d.isFormLike) ∧
      ((c.inherit (.ofClasses classes)).isDataModule ↔
        ∃ d, Descends classes c d ∧ d.isDataModule) := by
  have hfirst : firstNamed? classes c.name = some c :=
    (firstNamed?_eq_some_iff hnames).mpr ⟨hc, rfl⟩
  obtain ⟨hform, hdata⟩ := inherit_iff_takesAfter classes c
  simp only [takesAfter_iff_of_first hfirst, inLine_eq_descends hnames] at hform hdata
  -- a class descends from itself, so its own flags add nothing
  have hself (flag : ClassDecl → Bool) (h : flag c) : ∃ d, Descends classes c d ∧ flag d :=
    ⟨c, .refl, h⟩
  rw [hform, hdata]
  exact ⟨or_iff_right_of_imp (hself (·.isFormLike)), or_iff_right_of_imp (hself (·.isDataModule))⟩

end DistinctNames

end ClassDecl

namespace Project

/-- The classes of a project are those of its units in the order of their paths, with the roles that
they take over. -/
theorem classes_assemble (units : List SourceUnit) (notes : List Diagnostic) :
    let classes := (sortBy SourceUnit.compareByPath units).flatMap (·.classes)
    ((assemble units notes).units.flatMap (·.classes)).Perm
      (classes.map (·.inherit (.ofClasses classes))) := by
  intro classes
  have hnamed : (SourceUnit.nameApart [] (sortBy SourceUnit.compareByPath units)).1.flatMap
      (·.classes) = classes := by
    rw [List.flatMap_def, SourceUnit.map_nameApart fun _ _ => rfl, ← List.flatMap_def]
  refine ((sortBy_perm _ _).flatMap_right _).trans ?_
  rw [RoleTable.ofUnits_eq, hnamed, List.flatMap_map, ← hnamed]
  exact List.Perm.of_eq List.map_flatMap.symm

theorem classes_assemble_perm (units : List SourceUnit) (notes : List Diagnostic) :
    ∃ classes : List ClassDecl, classes.Perm (units.flatMap (·.classes)) ∧
      ((assemble units notes).units.flatMap (·.classes)).Perm
        ((units.flatMap (·.classes)).map (·.inherit (.ofClasses classes))) := by
  have hclasses := (sortBy_perm SourceUnit.compareByPath units).flatMap_right (·.classes)
  exact ⟨_, hclasses, (classes_assemble units notes).trans (hclasses.map _)⟩

theorem roles_assemble {units : List SourceUnit} (notes : List Diagnostic)
    (hnames : ((units.flatMap (·.classes)).map (·.name.toLower)).Nodup) :
    let before := units.flatMap (·.classes)
    let after := (assemble units notes).units.flatMap (·.classes)
    (after.map (·.name)).Perm (before.map (·.name)) ∧
      ∀ c ∈ before, ∀ c' ∈ after, c'.name = c.name →
        (c'.isFormLike ↔ ∃ d, ClassDecl.Descends before c d ∧ d.isFormLike) ∧
        (c'.isDataModule ↔ ∃ d, ClassDecl.Descends before c d ∧ d.isDataModule) ∧
        (c'.isDataAccessLike ↔ c.isDataAccessLike ∨ (¬ c.isDataModule ∧ c'.isDataModule)) := by
  intro before after
  obtain ⟨classes, hclasses, hafter⟩ := classes_assemble_perm units notes
  constructor
  · have hmap := hafter.map (·.name)
    rwa [List.map_map] at hmap
  · intro c hc c' hc' hname
    obtain ⟨d, hd, rfl⟩ := List.mem_map.mp (hafter.mem_iff.mp hc')
    obtain rfl : d = c := by
      apply List.inj_on_of_nodup_map hnames hd hc
      exact congrArg String.toLower hname
    rw [← ClassDecl.descends_of_perm hclasses]
    have hclassNames := ((hclasses.map _).nodup_iff).mpr hnames
    obtain ⟨hform, hdata⟩ := ClassDecl.inherit_iff hclassNames (hclasses.mem_iff.mpr hd)
    refine ⟨hform, hdata, ?_⟩
    simp only [ClassDecl.inherit]
    cases d.isDataModule <;> simp

/-- A form two classes away, and two data modules that extend each other. -/
theorem roles_assemble_editor :
    let base : ClassDecl := { name := "TBaseForm", parent := some "TForm", isFormLike := true }
    let order : ClassDecl := { name := "TOrderForm", parent := some "TBASEFORM" }
    let editor : ClassDecl := { name := "TOrderEditor", parent := some "tOrderForm" }
    let stock : ClassDecl := { name := "TStock", parent := some "TPrices" }
    let prices : ClassDecl := { name := "TPrices", parent := some "TStock", isDataModule := true }
    let units : List SourceUnit :=
      [{ name := "uOrders", path := "uOrders.pas", language := .pascal
         classes := [editor, order] },
        { name := "uStock", path := "uStock.pas", language := .pascal, classes := [stock, prices] },
        { name := "uBase", path := "uBase.pas", language := .pascal, classes := [base] }]
    let before := units.flatMap (·.classes)
    let after := (assemble units []).units.flatMap (·.classes)
    (before.map (·.name.toLower)).Nodup ∧
      (∀ c ∈ after, c.name = "TOrderEditor" → c.isFormLike) ∧
      (∀ c ∈ after, c.name = "TBaseForm" → ¬ c.isDataModule) ∧
      ∀ c ∈ after, c.name = "TStock" → c.isDataModule ∧ c.isDataAccessLike := by
  intro base order editor stock prices units before after
  have hlower : before.map (·.name.toLower) =
      ["tordereditor", "torderform", "tstock", "tprices", "tbaseform"] := by cbv
  have hnames : (before.map (·.name.toLower)).Nodup := by
    rw [hlower]
    decide
  obtain ⟨-, hroles⟩ := roles_assemble [] hnames
  refine ⟨hnames, ?_, ?_, ?_⟩
  · intro c hc hname
    have horder : ClassDecl.Extends before editor order := ⟨by decide +kernel, _, rfl, by cbv⟩
    have hbase : ClassDecl.Extends before order base := ⟨by decide +kernel, _, rfl, by cbv⟩
    exact (hroles editor (by decide +kernel) c hc hname).1.mpr
      ⟨base, .head horder (.single hbase), rfl⟩
  · intro c hc hname hdata
    obtain ⟨d, hwalk, hd⟩ := (hroles base (by decide +kernel) c hc hname).2.1.mp hdata
    obtain rfl | ⟨e, ⟨he, parent, hparent, hforeign⟩, -⟩ := hwalk.cases_head
    · exact Bool.false_ne_true hd
    · obtain rfl := Option.some.inj hparent
      have hform : "TForm".toLower ∈ before.map (·.name.toLower) :=
        List.mem_map.mpr ⟨e, he, hforeign.symm⟩
      have hlowerForm : "TForm".toLower = "tform" := by cbv
      rw [hlower, hlowerForm] at hform
      exact absurd hform (by decide)
  · intro c hc hname
    have hprices : ClassDecl.Extends before stock prices := ⟨by decide +kernel, _, rfl, by cbv⟩
    obtain ⟨-, hdata, haccess⟩ := hroles stock (by decide +kernel) c hc hname
    have hmodule := hdata.mpr ⟨prices, .single hprices, rfl⟩
    exact ⟨hmodule, haccess.mpr (.inr ⟨by decide, hmodule⟩)⟩

end Project

end MigrationAudit
