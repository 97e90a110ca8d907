import MigrationAudit.Proofs.Plan.UnitOrder
import MigrationAudit.Proofs.Text.Suffixes
import Mathlib.Data.String.Basic

/-!
# Identifiers of components

The identifier of a routine or class ends in its name behind a dot, so when no such name holds a
number sign, no identifier is what another one becomes by being numbered, whatever the names of
units are. Then all identifiers of a plan differ, and its components are in strictly increasing
order.
-/

namespace MigrationAudit

open Text

/-- No routine and no class has a number sign in its name. -/
structure Project.HasPlainNames (p : Project) : Prop where
  routines : ∀ u ∈ p.units, ∀ r ∈ u.routines, '#' ∉ r.name.toList
  classes : ∀ u ∈ p.units, ∀ c ∈ u.classes, '#' ∉ c.name.toList

namespace Component

def HasPlainId (c : Component) : Prop := ∃ xs ys, c.id.toList = xs ++ '.' :: ys ∧ '#' ∉ ys

/-! ## Numbers -/

theorem toList_id_numbered_succ (c : Component) (n : Nat) :
    (c.numbered (n + 1)).id.toList = c.id.toList ++ '#' :: (n + 2).repr.toList := by
  simp [numbered, toString]

theorem toList_prefix_numbered (c : Component) (n : Nat) :
    c.id.toList <+: (c.numbered n).id.toList := by
  cases n with
  | zero => exact List.prefix_refl _
  | succ n => exact ⟨_, (toList_id_numbered_succ c n).symm⟩

/-- A numbered identifier is no plain one: its last number sign stands behind all dots. -/
theorem id_ne_numbered_succ {c : Component} (hc : c.HasPlainId) (d : Component) (n : Nat) :
    c.id ≠ (d.numbered (n + 1)).id := by
  obtain ⟨xs, ys, hid, hys⟩ := hc
  intro h
  have hlist := congrArg String.toList h
  rw [hid, toList_id_numbered_succ] at hlist
  exact append_cons_ne (by decide) hys (notMem_repr (by decide) _) hlist

/-- Identifier and number are both read off a numbered identifier. -/
theorem id_numbered_inj {c d : Component} (hc : c.HasPlainId) (hd : d.HasPlainId) {m n : Nat}
    (h : (c.numbered m).id = (d.numbered n).id) : c.id = d.id ∧ m = n := by
  cases m with
  | zero =>
    cases n with
    | zero => exact ⟨h, rfl⟩
    | succ n => exact absurd h (id_ne_numbered_succ hc d n)
  | succ m =>
    cases n with
    | zero => exact absurd h.symm (id_ne_numbered_succ hd c m)
    | succ n =>
      have hlist := congrArg String.toList h
      rw [toList_id_numbered_succ, toList_id_numbered_succ] at hlist
      obtain ⟨hid, hnumber⟩ :=
        append_cons_inj (notMem_repr (by decide) _) (notMem_repr (by decide) _) hlist
      refine ⟨String.toList_inj.mp hid, ?_⟩
      have hsucc := repr_injective (String.toList_inj.mp hnumber)
      omega

variable {l : List Component} {taken : List String}

/-- A component is never given a number lower than the count of its identifier before it. -/
theorem exists_numbered_of_mem {d : Component} (hd : d ∈ numberApart taken l) :
    ∃ c ∈ l, ∃ n, taken.count c.id ≤ n ∧ d = c.numbered n := by
  induction l generalizing taken with
  | nil => exact absurd hd List.not_mem_nil
  | cons c l ih =>
    rw [numberApart_cons, List.mem_cons] at hd
    rcases hd with rfl | hd
    · exact ⟨c, List.mem_cons_self, _, le_rfl, rfl⟩
    · obtain ⟨e, he, n, hn, rfl⟩ := ih hd
      refine ⟨e, List.mem_cons_of_mem c he, n, le_trans ?_ hn, rfl⟩
      exact List.count_le_count_cons

theorem nodup_map_id_numberApart (h : ∀ c ∈ l, c.HasPlainId) (taken : List String) :
    ((numberApart taken l).map (·.id)).Nodup := by
  induction l generalizing taken with
  | nil => exact List.nodup_nil
  | cons c l ih =>
    obtain ⟨hc, hl⟩ := List.forall_mem_cons.mp h
    rw [numberApart_cons, List.map_cons, List.nodup_cons]
    refine ⟨fun hmem => ?_, ih hl _⟩
    obtain ⟨d, hd, hid⟩ := List.mem_map.mp hmem
    obtain ⟨e, he, n, hn, rfl⟩ := exists_numbered_of_mem hd
    obtain ⟨heq, rfl⟩ := id_numbered_inj (hl e he) hc hid
    -- `c` itself counts for all that come behind it
    rw [heq, List.count_cons_self] at hn
    exact absurd hn (Nat.not_succ_le_self _)

/-! ## Projects -/

variable {α : Type} {s : PlanningSettings α} {known : List String} {u : SourceUnit} {p : Project}

theorem hasPlainId_of_mem_drafts (hroutines : ∀ r ∈ u.routines, '#' ∉ r.name.toList)
    (hclasses : ∀ c ∈ u.classes, '#' ∉ c.name.toList) {c : Component} (hc : c ∈ drafts s known u) :
    c.HasPlainId := by
  rcases mem_drafts_iff.mp hc with ⟨r, hr, rfl⟩ | ⟨d, hd, rfl⟩
  · refine ⟨("routine:" ++ u.name).toList, r.name.toList, ?_, hroutines r hr⟩
    simp [id_ofRoutine]
  · refine ⟨("class:" ++ u.name).toList, d.name.toList, ?_, hclasses d hd⟩
    simp [id_ofClass]

/-- Numbering leaves in front what tells the kind of a component. -/
theorem id_numbered_ne_of_mem_drafts {c : Component} (hc : c ∈ drafts s known u) (n : Nat)
    (key : String) : (c.numbered n).id ≠ "table:" ++ key := by
  intro h
  obtain ⟨rest, hrest⟩ := toList_prefix_numbered c n
  rw [h] at hrest
  rcases mem_drafts_iff.mp hc with ⟨r, _, rfl⟩ | ⟨d, _, rfl⟩
  · simp [id_ofRoutine] at hrest
  · simp [id_ofClass] at hrest

theorem nodup_map_id_ofProject (h : p.HasPlainNames) (s : PlanningSettings α) :
    ((ofProject p s).map (·.id)).Nodup := by
  rw [ofProject_eq, List.map_append, List.nodup_append]
  refine ⟨?_, nodup_map_id_tables p, ?_⟩
  · apply nodup_map_id_numberApart
    intro c hc
    obtain ⟨u, hu, hc⟩ := List.mem_flatMap.mp hc
    exact hasPlainId_of_mem_drafts (h.routines u hu) (h.classes u hu) hc
  · intro id hid id' hid' heq
    obtain ⟨d, hd, rfl⟩ := List.mem_map.mp hid
    obtain ⟨t, ht, rfl⟩ := List.mem_map.mp hid'
    obtain ⟨c, hc, n, -, rfl⟩ := exists_numbered_of_mem hd
    obtain ⟨u, _, hc⟩ := List.mem_flatMap.mp hc
    obtain ⟨use, _, rfl⟩ := mem_tables_iff.mp ht
    exact id_numbered_ne_of_mem_drafts hc n use.key heq

end Component

namespace Plan

/-- When no routine or class has a number sign in its name, a plan never gives an identifier twice,
and lists its components in strictly increasing order. -/
theorem components_strictlyIncreasing {α : Type} [Scalar α] {p : Project}
    {s : PlanningSettings α} {plan : Plan α} (hnames : p.HasPlainNames)
    (hplan : derive p s = .ok plan) :
    (plan.components.map (·.id)).Nodup ∧
      plan.components.Pairwise fun c d => c.id < d.id := by
  obtain rfl := eq_ofComponents_of_derive hplan
  have hperm := sortBy_perm (compareOn (·.id)) (Component.ofProject p s)
  have hnodup : ((sortBy (compareOn (·.id)) (Component.ofProject p s)).map (·.id)).Nodup :=
    (hperm.map _).nodup_iff.mpr (Component.nodup_map_id_ofProject hnames s)
  have hsorted := pairwise_sortBy (compareOn fun c : Component => c.id) (Component.ofProject p s)
  refine ⟨hnodup, ?_⟩
  apply (hsorted.and (List.pairwise_map.mp hnodup)).imp
  rintro c d ⟨hle, hne⟩
  have hle : c.id ≤ d.id := compare_le_iff_le.mp (Ordering.isLE_iff_ne_gt.mp hle)
  exact lt_of_le_of_ne hle hne

/-- Units with dots and number signs in their names, among them two whose routines would have one
identifier, and one that is called what this identifier becomes by being numbered. -/
theorem components_strictlyIncreasing_dotted :
    let routine (name : String) : Routine := { name, kind := .procedure }
    let unit (name : String) (routines : List Routine) : SourceUnit :=
      { name, path := name ++ ".pas", language := .pascal, kind := .plainUnit, routines
        dataOps := [{ kind := .select, raw := "", table := some "a#2" }] }
    let p : Project := .ofUnits
      [unit "A" [routine "B.C"], unit "A.B" [routine "C", routine "C"],
        unit "A.B.C#2" [routine "D"]]
    let s : PlanningSettings Rat := { effort := ⟨1, 2, 3⟩ }
    (Component.numberApart [] (p.units.flatMap (Component.drafts s p.knownRoutines))).map (·.id) =
        ["routine:A.B.C", "routine:A.B.C#2", "routine:A.B.C#3", "routine:A.B.C#2.D"] ∧
      ∃ plan, p.HasPlainNames ∧ derive p s = .ok plan ∧ (plan.components.map (·.id)).Nodup ∧
        plan.components.Pairwise fun c d => c.id < d.id := by
  intro routine unit p s
  have hnames : p.HasPlainNames := ⟨by decide +kernel, by decide +kernel⟩
  have hplan := derive_eq_ok (p := p) (s := s) rfl
  exact ⟨by decide +kernel, _, hnames, hplan, components_strictlyIncreasing hnames hplan⟩

end Plan

end MigrationAudit
