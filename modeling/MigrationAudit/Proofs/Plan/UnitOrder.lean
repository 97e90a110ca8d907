import MigrationAudit.Proofs.Facts.Assembly
import MigrationAudit.Proofs.Plan.Figures
import MigrationAudit.Proofs.Plan.Parts
import MigrationAudit.Proofs.Sorted

/-!
# The order of units in a plan

Two things in a plan go by the first unit that has a say: which of the components of one identifier
is not numbered, and how a table is spelled. Where no two units meet in either, the plan is the same
in every order of the units, and nowhere else. The figures of a plan never see the order.
-/

namespace MigrationAudit

variable {α : Type}

/-- No identifier is found in two units, and units that name one table spell it alike. -/
structure Project.IsOrderFree (p : Project) (s : PlanningSettings α) : Prop where
  identifiers : ∀ u ∈ p.units, ∀ v ∈ p.units, u ≠ v →
    ∀ c ∈ Component.ofUnit s p.knownRoutines u, ∀ d ∈ Component.ofUnit s p.knownRoutines v,
      c.id ≠ d.id
  spellings : ∀ u ∈ p.units, ∀ v ∈ p.units, ∀ key,
    ∀ a ∈ u.spelling? key, ∀ b ∈ v.spelling? key, a = b

/-- A component without what the order of units has a say in: its identifier, or the spelling of its
name if it is a table. -/
def Component.anonymous (c : Component) : Component :=
  if c.sourceKind = .table then { c with sourceName := "", targetName := "" }
  else { c with id := "" }

/-- Plans with the same identifiers, the same components up to their names, and the same figures. -/
structure Plan.AgreesUpToNames (a b : Plan α) : Prop where
  identifiers : a.components.map (·.id) = b.components.map (·.id)
  components : (a.components.map (·.anonymous)).Perm (b.components.map (·.anonymous))
  figures : a.figures = b.figures

namespace Component

theorem grade_anonymous (c : Component) : c.anonymous.grade = c.grade := by
  unfold anonymous
  split <;> rfl

theorem anonymous_setId {c : Component} (h : c.sourceKind ≠ .table) (id : String) :
    { c with id }.anonymous = c.anonymous := by
  simp only [anonymous, h, if_false]

section Perm

variable {p q : Project} (h : p.units.Perm q.units)
include h

theorem drafts_of_perm (s : PlanningSettings α) :
    drafts s p.knownRoutines = drafts s q.knownRoutines :=
  drafts_congr fun _ => (h.flatMap_right _).mem_iff

theorem ofUnit_of_perm (s : PlanningSettings α) :
    ofUnit s p.knownRoutines = ofUnit s q.knownRoutines := by
  funext u
  rw [ofUnit, ofUnit, drafts_of_perm h]

theorem perm_tableUses : (TableUse.ofProject p).Perm (TableUse.ofProject q) := h.flatMap_right _

theorem map_tables_of_perm {β : Type} {f : Component → β}
    (hf : ∀ key, f (ofTable (TableUse.ofProject p) key) = f (ofTable (TableUse.ofProject q) key)) :
    (tables p).map f = (tables q).map f := by
  have hkeys : sortBy compare ((TableUse.ofProject p).map (·.key)) =
      sortBy compare ((TableUse.ofProject q).map (·.key)) :=
    sortBy_eq_of_perm_of_lawful ((perm_tableUses h).map _)
  rw [tables, tables, hkeys, List.map_map, List.map_map]
  apply List.map_congr_left
  intro key _
  exact hf key

/-! ## What no order changes -/

theorem anonymous_ofTable_of_perm (key : String) :
    (ofTable (TableUse.ofProject p) key).anonymous =
      (ofTable (TableUse.ofProject q) key).anonymous := by
  obtain ⟨hdependencies, hnotes⟩ := ofTable_of_perm (perm_tableUses h) key
  simp only [ofTable] at hdependencies hnotes
  simp only [anonymous, ofTable, hdependencies, hnotes, if_true]

theorem map_anonymous_ofProject_of_perm (s : PlanningSettings α) :
    ((ofProject p s).map (·.anonymous)).Perm ((ofProject q s).map (·.anonymous)) := by
  have hdrafts (us : List SourceUnit) :
      (numberApart [] (us.flatMap (drafts s q.knownRoutines))).map (·.anonymous) =
        (us.flatMap (drafts s q.knownRoutines)).map (·.anonymous) := by
    apply map_numberApart
    intro c hc id
    obtain ⟨u, _, hc⟩ := List.mem_flatMap.mp hc
    exact anonymous_setId (sourceKind_ne_of_mem_drafts hc) id
  have htables : (tables p).map (·.anonymous) = (tables q).map (·.anonymous) :=
    map_tables_of_perm h (anonymous_ofTable_of_perm h)
  rw [ofProject_eq, ofProject_eq, List.map_append, List.map_append, htables, drafts_of_perm h,
    hdrafts, hdrafts]
  exact ((h.flatMap_right _).map _).append_right _

theorem map_id_ofProject_of_perm (s : PlanningSettings α) :
    ((ofProject p s).map (·.id)).Perm ((ofProject q s).map (·.id)) := by
  have htables : (tables p).map (·.id) = (tables q).map (·.id) :=
    map_tables_of_perm h fun _ => rfl
  rw [ofProject_eq, ofProject_eq, List.map_append, List.map_append, htables, drafts_of_perm h]
  apply List.Perm.append_right
  exact map_id_numberApart_of_perm (h.flatMap_right _) []

/-! ## What keeps the order out -/

theorem ofTable_eq_of_perm (hfree : ∀ u ∈ p.units, ∀ v ∈ p.units, ∀ key,
      ∀ a ∈ u.spelling? key, ∀ b ∈ v.spelling? key, a = b) (key : String) :
    ofTable (TableUse.ofProject p) key = ofTable (TableUse.ofProject q) key := by
  have hname : (ofTable (TableUse.ofProject p) key).sourceName =
      (ofTable (TableUse.ofProject q) key).sourceName := by
    rw [sourceName_ofTable, sourceName_ofTable,
      findSome?_eq_of_perm h fun u hu v hv => hfree u hu v hv key]
  obtain ⟨hdependencies, hnotes⟩ := ofTable_of_perm (perm_tableUses h) key
  simp only [ofTable] at hname hdependencies hnotes
  simp only [ofTable, hname, hdependencies, hnotes]

theorem sortBy_ofProject_of_perm {s : PlanningSettings α} (hnames : (p.units.map (·.name)).Nodup)
    (hfree : p.IsOrderFree s) :
    sortBy (compareOn (·.id)) (ofProject p s) = sortBy (compareOn (·.id)) (ofProject q s) := by
  have hapart : p.units.Pairwise fun u v => ∀ c ∈ ofUnit s p.knownRoutines u,
      ∀ d ∈ ofUnit s p.knownRoutines v, c.id ≠ d.id := by
    apply (List.Nodup.of_map _ hnames).imp_of_mem
    intro u v hu hv huv
    exact hfree.identifiers u hu v hv huv
  have hapart' : q.units.Pairwise fun u v => ∀ c ∈ ofUnit s p.knownRoutines u,
      ∀ d ∈ ofUnit s p.knownRoutines v, c.id ≠ d.id :=
    (h.pairwise_iff fun huv d hd c hc => (huv c hc d hd).symm).mp hapart
  have htables : tables p = tables q := by
    have hmap := map_tables_of_perm (f := fun c => c) h (ofTable_eq_of_perm h hfree.spellings)
    rwa [List.map_id', List.map_id'] at hmap
  rw [ofProject_eq, ofProject_eq, ← drafts_of_perm h, numberApart_drafts hapart,
    numberApart_drafts hapart', htables]
  apply sortBy_flatMap_append_of_perm h
  apply hapart.imp
  intro u v huv c hc d hd heq
  exact huv c hc d hd (Std.LawfulEqCmp.eq_of_compare heq)

end Perm

/-! ## What lets the order in -/

theorem find?_id_of_sortBy_eq {l l' : List Component}
    (h : sortBy (compareOn (·.id)) l = sortBy (compareOn (·.id)) l') (id : String) :
    (l.find? fun c => c.id == id) = l'.find? fun c => c.id == id := by
  have hties (c d : Component) (hc : c.id == id) (hd : d.id == id) :
      (compareOn (·.id) c d : Ordering).isLE := by
    have hself : compare id id = .eq := Std.ReflCmp.compare_self
    rw [compareOn, eq_of_beq hc, eq_of_beq hd, hself]
    rfl
  rw [← List.head?_filter, ← List.head?_filter, ← filter_sortBy hties l, h, filter_sortBy hties]

theorem unit_of_find? {p : Project} {s : PlanningSettings α} {u : SourceUnit} {us : List SourceUnit}
    (hunits : p.units = u :: us) {c : Component} (hc : c ∈ ofUnit s p.knownRoutines u) :
    ((ofProject p s).find? fun d => d.id == c.id).bind (·.unit) = some u.name := by
  have hfound : ((ofUnit s p.knownRoutines u).find? fun d => d.id == c.id).isSome :=
    List.find?_isSome.mpr ⟨c, hc, beq_self_eq_true _⟩
  obtain ⟨d, hd⟩ := Option.isSome_iff_exists.mp hfound
  rw [ofProject_eq, hunits, List.flatMap_cons, numberApart_append, List.append_assoc,
    List.find?_append, ← ofUnit, hd]
  exact unit_of_mem_ofUnit (List.mem_of_find?_eq_some hd)

theorem mem_tables_of_mem_ofProject {p : Project} {s : PlanningSettings α} {c : Component}
    (hc : c ∈ ofProject p s) (hkind : c.sourceKind = .table) : c ∈ tables p := by
  rw [ofProject_eq, List.mem_append] at hc
  apply hc.resolve_left
  intro hdraft
  obtain ⟨d, hd, hdc⟩ := exists_of_mem_numberApart (f := (·.sourceKind)) (fun _ _ => rfl) hdraft
  obtain ⟨u, _, hd⟩ := List.mem_flatMap.mp hd
  exact sourceKind_ne_of_mem_drafts hd (hdc.trans hkind)

theorem ofTable_eq_of_sortBy_eq {p q : Project} {s : PlanningSettings α}
    (h : sortBy (compareOn (·.id)) (ofProject p s) = sortBy (compareOn (·.id)) (ofProject q s))
    {key : String} (hkey : ofTable (TableUse.ofProject p) key ∈ tables p) :
    ofTable (TableUse.ofProject p) key = ofTable (TableUse.ofProject q) key := by
  have hmem : ofTable (TableUse.ofProject p) key ∈ sortBy (compareOn (·.id)) (ofProject p s) := by
    rw [mem_sortBy, ofProject_eq]
    exact List.mem_append_right _ hkey
  rw [h, mem_sortBy] at hmem
  obtain ⟨t, _, ht⟩ := mem_tables_iff.mp (mem_tables_of_mem_ofProject hmem rfl)
  -- tables with one identifier have one key
  have hid := congrArg Component.id ht
  obtain rfl : t.key = key := by simpa [id_ofTable] using hid
  exact ht.symm

theorem sourceName_of_spelling? {p : Project} {u : SourceUnit} {us : List SourceUnit}
    (hunits : p.units = u :: us) {key a : String} (ha : a ∈ u.spelling? key) :
    (ofTable (TableUse.ofProject p) key).sourceName = a := by
  rw [sourceName_ofTable, hunits, List.findSome?_cons, ha]
  rfl

theorem ofTable_mem_tables {p : Project} {u : SourceUnit} (hu : u ∈ p.units)
    {key a : String} (ha : a ∈ u.spelling? key) :
    ofTable (TableUse.ofProject p) key ∈ tables p := by
  obtain ⟨t, ht, rfl, _⟩ := SourceUnit.exists_of_spelling? ha
  exact mem_tables_iff.mpr ⟨t, List.mem_flatMap.mpr ⟨u, hu, ht⟩, rfl⟩

end Component

/-! ## Plans -/

namespace Project

variable {p : Project} {s : PlanningSettings α}

/-- A project whose components come out alike in every order of its units keeps order out. -/
theorem isOrderFree_of_forall_perm (hnames : (p.units.map (·.name)).Nodup)
    (hall : ∀ us, us.Perm p.units →
      sortBy (compareOn (·.id)) (Component.ofProject { p with units := us } s) =
        sortBy (compareOn (·.id)) (Component.ofProject p s)) : p.IsOrderFree s := by
  have hboth {us vs : List SourceUnit} (hus : us.Perm p.units) (hvs : vs.Perm p.units) :
      sortBy (compareOn (·.id)) (Component.ofProject { p with units := us } s) =
        sortBy (compareOn (·.id)) (Component.ofProject { p with units := vs } s) :=
    (hall us hus).trans (hall vs hvs).symm
  constructor
  case identifiers =>
    intro u hu v hv huv c hc d hd hid
    obtain ⟨rest, hrest⟩ := exists_perm_cons_cons hu hv huv
    have hswap : (v :: u :: rest).Perm p.units := (List.Perm.swap _ _ _).trans hrest.symm
    rw [Component.ofUnit_of_perm (q := { p with units := u :: v :: rest }) hrest] at hc
    rw [Component.ofUnit_of_perm (q := { p with units := v :: u :: rest }) hswap.symm] at hd
    -- the unit in front has the identifier without a number
    have hfirst := Component.unit_of_find? rfl hc
    have hsecond := Component.unit_of_find? rfl hd
    rw [hid, Component.find?_id_of_sortBy_eq (hboth hrest.symm hswap), hsecond] at hfirst
    exact huv (List.inj_on_of_nodup_map hnames hu hv (Option.some.inj hfirst.symm))
  case spellings =>
    intro u hu v hv key a ha b hb
    by_cases huv : u = v
    · subst huv
      exact Option.some.inj (ha.symm.trans hb)
    obtain ⟨rest, hrest⟩ := exists_perm_cons_cons hu hv huv
    have hswap : (v :: u :: rest).Perm p.units := (List.Perm.swap _ _ _).trans hrest.symm
    let p' : Project := { p with units := u :: v :: rest }
    let q' : Project := { p with units := v :: u :: rest }
    have htable := Component.ofTable_eq_of_sortBy_eq (p := p') (q := q') (hboth hrest.symm hswap)
      (Component.ofTable_mem_tables List.mem_cons_self ha)
    calc a = (Component.ofTable (TableUse.ofProject p') key).sourceName :=
          (Component.sourceName_of_spelling? rfl ha).symm
      _ = (Component.ofTable (TableUse.ofProject q') key).sourceName := by rw [htable]
      _ = b := Component.sourceName_of_spelling? rfl hb

end Project

namespace Plan

section Derive

variable [Scalar α] {p q : Project} {s : PlanningSettings α}

theorem derive_eq_ok (hfault : p.fault? = none) :
    derive p s = .ok (ofComponents (sortBy (compareOn (·.id)) (Component.ofProject p s)) p s) := by
  rw [derive, hfault]

theorem fault?_of_derive_eq_ok {plan : Plan α} (h : derive p s = .ok plan) : p.fault? = none := by
  unfold derive at h
  split at h
  · cases h
  · assumption

theorem eq_ofComponents_of_derive {plan : Plan α} (h : derive p s = .ok plan) :
    plan = ofComponents (sortBy (compareOn (·.id)) (Component.ofProject p s)) p s := by
  rw [derive_eq_ok (fault?_of_derive_eq_ok h)] at h
  exact (Except.ok.inj h).symm

theorem derive_eq_derive_iff (hunits : p.units.Perm q.units)
    (hversion : p.schemaVersion = q.schemaVersion) (hdiagnostics : p.diagnostics = q.diagnostics)
    (hfault : p.fault? = none) :
    derive p s = derive q s ↔
      sortBy (compareOn (·.id)) (Component.ofProject p s) =
        sortBy (compareOn (·.id)) (Component.ofProject q s) := by
  have hfault' : q.fault? = none := by rw [← Project.fault?_of_perm hunits hversion, hfault]
  rw [derive_eq_ok hfault, derive_eq_ok hfault', ofComponents_of_perm s _ hunits hdiagnostics]
  constructor
  · intro h
    exact congrArg Plan.components (Except.ok.inj h)
  · intro h
    rw [h]

end Derive

/-- In exact arithmetic two orders of the units differ in nothing but what goes by names. -/
theorem agreesUpToNames_of_perm {p q : Project} (s : PlanningSettings Rat)
    (hunits : p.units.Perm q.units) (hdiagnostics : p.diagnostics = q.diagnostics) :
    AgreesUpToNames
      (ofComponents (sortBy (compareOn (·.id)) (Component.ofProject p s)) p s)
      (ofComponents (sortBy (compareOn (·.id)) (Component.ofProject q s)) q s) := by
  have hanonymous : ((sortBy (compareOn (·.id)) (Component.ofProject p s)).map (·.anonymous)).Perm
      ((sortBy (compareOn (·.id)) (Component.ofProject q s)).map (·.anonymous)) :=
    ((sortBy_perm _ _).map _).trans
      ((Component.map_anonymous_ofProject_of_perm hunits s).trans ((sortBy_perm _ _).map _).symm)
  have hids (l : List Component) :
      (sortBy (compareOn (·.id)) l).map (·.id) = sortBy compare (l.map (·.id)) :=
    List.map_mergeSort fun _ _ _ _ => rfl
  constructor
  case identifiers =>
    calc (sortBy (compareOn (·.id)) (Component.ofProject p s)).map (·.id)
        = sortBy compare ((Component.ofProject p s).map (·.id)) := hids _
      _ = sortBy compare ((Component.ofProject q s).map (·.id)) :=
          sortBy_eq_of_perm_of_lawful (Component.map_id_ofProject_of_perm hunits s)
      _ = (sortBy (compareOn (·.id)) (Component.ofProject q s)).map (·.id) := (hids _).symm
  case components => exact hanonymous
  case figures =>
    apply figures_ofComponents_of_grades _ s hunits hdiagnostics
    have hgrades := hanonymous.map Component.grade
    simpa only [List.map_map, Function.comp_def, Component.grade_anonymous] using hgrades

/-- Every order of the units of a project leads to the same identifiers, the same figures, and the
same components up to their names. The plan is the same in every order just when no two units have
an identifier in common or spell a table differently. -/
theorem derive_reordered {p : Project} (hnames : (p.units.map (·.name)).Nodup) :
    (∀ (s : PlanningSettings Rat) us, us.Perm p.units → ∀ plan, derive p s = .ok plan →
      ∃ plan', derive { p with units := us } s = .ok plan' ∧ plan'.AgreesUpToNames plan) ∧
    ∀ {α : Type} [Scalar α] (s : PlanningSettings α),
      (∀ us, us.Perm p.units → ∀ fault, derive p s = .error fault →
        derive { p with units := us } s = .error fault) ∧
      (p.fault? = none →
        ((∀ us, us.Perm p.units → derive { p with units := us } s = derive p s) ↔
          p.IsOrderFree s)) := by
  have hperm {us : List SourceUnit} (hus : us.Perm p.units) :
      ({ p with units := us } : Project).units.Perm p.units := hus
  have hfaults {us : List SourceUnit} (hus : us.Perm p.units) :
      ({ p with units := us } : Project).fault? = p.fault? :=
    Project.fault?_of_perm (hperm hus) rfl
  refine ⟨?_, fun s => ⟨?_, fun hfault => ⟨?_, ?_⟩⟩⟩
  · intro s us hus plan hplan
    have hfault := fault?_of_derive_eq_ok hplan
    rw [derive_eq_ok hfault] at hplan
    obtain rfl := Except.ok.inj hplan
    exact ⟨_, derive_eq_ok ((hfaults hus).trans hfault), agreesUpToNames_of_perm s (hperm hus) rfl⟩
  · intro us hus fault hderive
    unfold derive at hderive ⊢
    rw [hfaults hus]
    split at hderive
    · exact hderive
    · cases hderive
  · intro hall
    apply Project.isOrderFree_of_forall_perm hnames
    intro us hus
    have hplans := hall us hus
    rwa [derive_eq_derive_iff (hperm hus) rfl rfl ((hfaults hus).trans hfault)] at hplans
  · intro hfree us hus
    rw [derive_eq_derive_iff (hperm hus) rfl rfl ((hfaults hus).trans hfault)]
    exact (Component.sortBy_ofProject_of_perm (hperm hus).symm hnames hfree).symm

/-- Two units that name one table, in capitals and in small letters. -/
theorem derive_reordered_customers :
    let select (table : String) : DataOp :=
      { kind := .select, raw := "SELECT * FROM " ++ table, table := some table }
    let save : Routine := { name := "Save", kind := .procedure }
    let shop : SourceUnit :=
      { name := "Shop", path := "shop.pas", language := .pascal, routines := [save]
        dataOps := [select "clientes"] }
    let crm : SourceUnit :=
      { name := "Crm", path := "crm.pas", language := .pascal, routines := [save]
        dataOps := [select "CLIENTES"] }
    let mixed := Project.ofUnits [shop, crm]
    let plain := Project.ofUnits [shop, { crm with dataOps := [select "clientes"] }]
    ¬ (∀ us, us.Perm mixed.units →
        derive { mixed with units := us } (.standard : PlanningSettings Rat) =
          derive mixed .standard) ∧
      ∀ us, us.Perm plain.units →
        derive { plain with units := us } (.standard : PlanningSettings Rat) =
          derive plain .standard := by
  intro select save shop crm mixed plain
  constructor
  · intro hall
    have hfree := (((derive_reordered (p := mixed) (by decide)).2 .standard).2 rfl).mp hall
    have hshop : shop.spelling? "CLIENTES" = some "clientes" := by decide +kernel
    have hcrm : crm.spelling? "CLIENTES" = some "CLIENTES" := by decide +kernel
    have heq := hfree.spellings shop List.mem_cons_self crm
      (List.mem_cons_of_mem _ List.mem_cons_self) "CLIENTES" _ hshop _ hcrm
    exact absurd heq (by decide)
  · apply (((derive_reordered (p := plain) (by decide)).2 .standard).2 rfl).mpr
    constructor
    case identifiers => decide +kernel
    case spellings =>
      have hplain : ∀ u ∈ plain.units, ∀ t ∈ u.tableUses, t.table = "clientes" := by decide
      intro u hu v hv key a ha b hb
      obtain ⟨t, ht, _, rfl⟩ := SourceUnit.exists_of_spelling? ha
      obtain ⟨t', ht', _, rfl⟩ := SourceUnit.exists_of_spelling? hb
      rw [hplain u hu t ht, hplain v hv t' ht']

end Plan

end MigrationAudit
