import MigrationAudit.Proofs.Pascal.Declarations
import Mathlib.Data.List.Forall2

/-!
# Records of nested routines

Every routine that is nested in another one has its own record in the unit. As long as that routine
has no body, its record waits for an implementation like any other declaration, and a top-level
routine of the same name may be put into it. This is the only way in which a record comes to hold
another body than that of its routine.
-/

namespace MigrationAudit.Pascal

open Text Source

def isNested (r : Routine) : Bool := r.directives.contains "nested"

/-- What a record tells of a body. -/
def bodyOf (r : Routine) : Bool × Nat × List String := (r.hasBody, r.complexity, r.callHints)

/-- No directive of the language marks a record as nested. -/
theorem isNested_eq_false {r : Routine} (h : ∀ d ∈ r.directives, d ∈ directives) :
    isNested r = false := by
  have hnotin : "nested" ∉ directives := by decide
  rw [isNested, Bool.eq_false_iff, ne_eq, List.contains_iff_mem]
  exact fun hmem => hnotin (h _ hmem)

/-! ## One implementation -/

theorem mem_foldl_pushUnique {name : String} {more : List String} (h : name ∉ more)
    (names : List String) : name ∈ more.foldl pushUnique names ↔ name ∈ names := by
  induction more generalizing names with
  | nil => rfl
  | cons n more ih =>
    rw [List.mem_cons, not_or] at h
    rw [List.foldl_cons, ih h.2, pushUnique]
    split
    · rfl
    · simp [h.1]

variable {facts : Routine} {d? : Option Routine} {rs rs' : List Routine}

theorem isNested_absorb (h : isNested facts = false) (d : Routine) :
    isNested (absorb d facts) = isNested d := by
  have hnotin : "nested" ∉ facts.directives := by simpa [isNested] using h
  rw [Bool.eq_iff_iff, isNested, isNested, List.contains_iff_mem, List.contains_iff_mem]
  exact mem_foldl_pushUnique hnotin d.directives

theorem bodyOf_absorb (d facts : Routine) : bodyOf (absorb d facts) = bodyOf facts := rfl

theorem Placed.filter_isNested (h : Placed facts d? rs rs') (hfacts : isNested facts = false) :
    (rs'.filter isNested = rs.filter isNested ∧ ∀ d ∈ d?, isNested d = false) ∨
      ∃ front d back, d? = some d ∧ isNested d = true ∧ d.hasBody = false ∧
        rs.filter isNested = front ++ d :: back ∧
          rs'.filter isNested = front ++ absorb d facts :: back := by
  cases h with
  | @completed front back d hbody =>
    cases hd : isNested d with
    | false =>
      left
      simp [isNested_absorb hfacts, hd]
    | true =>
      right
      refine ⟨front.filter isNested, d, back.filter isNested, rfl, hd, hbody, ?_, ?_⟩
      · simp [hd]
      · simp [isNested_absorb hfacts, hd]
  | added front back visibility =>
    left
    have hadded : isNested { facts with visibility } = false := hfacts
    simp [hadded]

/-! ## The record of a routine -/

/-- The record tells of a nested routine what its declaration says; and it holds the body of the
routine, or when the routine has none, perhaps that of a top-level routine of the same name. -/
structure StandsFor (source : Masked) (s : ExtractionSettings) (forest : List RoutineNode)
    (n : RoutineNode) (r : Routine) : Prop where
  declaration_eq : r =
    { Assembly.nestedRecord source s n with
      hasBody := r.hasBody
      complexity := r.complexity
      callHints := r.callHints
      directives := r.directives }
  body : bodyOf r = bodyOf (n.toRoutine source s) ∨
    n.body = none ∧ ∃ t ∈ forest, t.body.isSome ∧
      t.header.name.toLower = n.header.name.toLower ∧ bodyOf r = bodyOf (t.toRoutine source s)

variable {source : Masked} {s : ExtractionSettings} {forest : List RoutineNode} {n : RoutineNode}
  {r : Routine}

theorem hasBody_toRoutine (source : Masked) (s : ExtractionSettings) (n : RoutineNode) :
    (n.toRoutine source s).hasBody = n.body.isSome := by
  rw [RoutineNode.toRoutine]
  cases n.body <;> rfl

theorem bodyOf_toRoutine_of_none (source : Masked) (s : ExtractionSettings) (h : n.body = none) :
    bodyOf (n.toRoutine source s) = (false, 1, []) := by
  rw [RoutineNode.toRoutine, h]
  rfl

theorem name_toRoutine (source : Masked) (s : ExtractionSettings) (n : RoutineNode) :
    (n.toRoutine source s).name = n.header.name := by
  rw [RoutineNode.toRoutine]
  cases n.body <;> rfl

theorem directives_toRoutine (source : Masked) (s : ExtractionSettings) (n : RoutineNode) :
    (n.toRoutine source s).directives = n.directives := by
  rw [RoutineNode.toRoutine]
  cases n.body <;> rfl

namespace StandsFor

theorem nestedRecord (source : Masked) (s : ExtractionSettings) (forest : List RoutineNode)
    (n : RoutineNode) : StandsFor source s forest n (Assembly.nestedRecord source s n) :=
  ⟨rfl, .inl rfl⟩

theorem of_hasBody_eq_false (h : StandsFor source s forest n r) (hbody : r.hasBody = false) :
    n.body = none ∧ bodyOf r = bodyOf (n.toRoutine source s) := by
  rcases h.body with heq | ⟨-, t, -, ht, -, heq⟩
  · have hfirst : (n.toRoutine source s).hasBody = false := (congrArg Prod.fst heq).symm.trans hbody
    exact ⟨by simpa [hasBody_toRoutine] using hfirst, heq⟩
  · have hfirst : (t.toRoutine source s).hasBody = false := (congrArg Prod.fst heq).symm.trans hbody
    simp [hasBody_toRoutine, Option.isSome_iff_ne_none.mp ht] at hfirst

theorem absorb {t : RoutineNode} (h : StandsFor source s forest n r)
    (hawaits : awaits t.header.name r) (ht : t ∈ forest) :
    StandsFor source s forest n (absorb r (t.toRoutine source s)) := by
  obtain ⟨hbody, hname⟩ := awaits_iff.mp hawaits
  have hnone := (h.of_hasBody_eq_false hbody).1
  refine ⟨?_, ?_⟩
  · rw [h.declaration_eq]
    rfl
  · rw [bodyOf_absorb]
    cases htbody : t.body with
    | none =>
      left
      rw [bodyOf_toRoutine_of_none source s htbody, bodyOf_toRoutine_of_none source s hnone]
    | some b =>
      right
      refine ⟨hnone, t, ht, by simp [htbody], ?_, rfl⟩
      have hrname : r.name = n.header.name := by
        rw [h.declaration_eq]
        exact name_toRoutine source s n
      rw [← hname, hrname]

end StandsFor

/-! ## One top-level routine -/

theorem forall₂_of_append_cons {α β : Type} {R : α → β → Prop} {as : List α} {front back : List β}
    {b : β} (h : List.Forall₂ R as (front ++ b :: back)) :
    ∃ front' a back', as = front' ++ a :: back' ∧ List.Forall₂ R front' front ∧ R a b ∧
      List.Forall₂ R back' back := by
  have hfront := List.forall₂_take_append _ _ _ h
  have hback := List.forall₂_drop_append _ _ _ h
  cases hdrop : as.drop front.length with
  | nil => simp [hdrop] at hback
  | cons a back' =>
    rw [hdrop, List.forall₂_cons] at hback
    exact ⟨_, a, back', by rw [← hdrop, List.take_append_drop], hfront, hback⟩

namespace Assembly

variable (path : String) (source : Masked) (s : ExtractionSettings)

/-- The nested records of a unit stand for nested routines, one each and in order; no method is
nested. -/
structure NestedRecords (forest : List RoutineNode) (nested : List RoutineNode) (a : Assembly) :
    Prop where
  records : List.Forall₂ (StandsFor source s forest) nested (a.routines.filter isNested)
  methods : ∀ m ∈ a.methods, isNested m = false

/-- The nested records hold the bodies of their routines. -/
def KeepsBodies (nested : List RoutineNode) (a : Assembly) : Prop :=
  (a.routines.filter isNested).map bodyOf = nested.map fun n => bodyOf (n.toRoutine source s)

/-- The top-level routine has a body, and when it is put in, a nested record is taken for its
declaration. -/
def Overtakes (a : Assembly) (t : RoutineNode) : Prop :=
  t.body.isSome ∧ ∃ d,
    (a.withNested path source s t).declarationOf? (t.toRoutine source s) = some d ∧
      isNested d = true

variable {path source s} {forest nested : List RoutineNode} {a : Assembly} {t : RoutineNode}

theorem filter_withNested (hmethods : ∀ m ∈ a.methods, isNested m = false) :
    (a.withNested path source s t).routines.filter isNested =
      a.routines.filter isNested ++ t.descendants.map (nestedRecord source s) := by
  have hall : ∀ r ∈ t.descendants.map (nestedRecord source s), isNested r = true := by
    intro r hr
    obtain ⟨n, -, rfl⟩ := List.mem_map.mp hr
    simp [isNested, nestedRecord]
  have hnone : a.methods.filter isNested = [] :=
    List.filter_eq_nil_iff.mpr fun m hm => by simp [hmethods m hm]
  rw [routines_withNested, routines, List.filter_append, List.filter_append, List.filter_append,
    List.filter_eq_self.mpr hall, hnone, List.append_nil, List.append_nil]

theorem NestedRecords.withNested (h : NestedRecords source s forest nested a) (t : RoutineNode) :
    NestedRecords source s forest (nested ++ t.descendants) (a.withNested path source s t) := by
  refine ⟨?_, by simpa using h.methods⟩
  rw [filter_withNested h.methods]
  refine List.rel_append h.records (List.forall₂_map_right_iff.mpr ?_)
  exact List.forall₂_same.mpr fun n _ => .nestedRecord source s forest n

theorem keepsBodies_withNested_iff (hmethods : ∀ m ∈ a.methods, isNested m = false) :
    KeepsBodies source s (nested ++ t.descendants) (a.withNested path source s t) ↔
      KeepsBodies source s nested a := by
  rw [KeepsBodies, KeepsBodies, filter_withNested hmethods, List.map_append, List.map_append,
    List.map_map]
  exact List.append_left_inj _

/-- The step for what the records stand for. -/
theorem NestedRecords.attach (h : NestedRecords source s forest nested a) (ht : t ∈ forest)
    (hnested : isNested (t.toRoutine source s) = false) :
    NestedRecords source s forest nested (a.attach (t.toRoutine source s)) := by
  constructor
  case methods =>
    rcases placed_attach a (t.toRoutine source s) with ⟨hplaced, -⟩ | ⟨-, hclasses⟩
    · exact hplaced.forall (fun d hd _ => (isNested_absorb hnested d).trans hd) (fun _ => hnested)
        h.methods
    · rw [Assembly.methods, hclasses]
      exact h.methods
  case records =>
    rcases (placed_routines_attach a (t.toRoutine source s)).filter_isNested hnested with
      ⟨heq, -⟩ | ⟨front, d, back, hd, -, -, hbefore, hafter⟩
    · rw [heq]
      exact h.records
    · have hrecords := h.records
      rw [hbefore] at hrecords
      obtain ⟨front', n, back', rfl, hfront, hn, hback⟩ := forall₂_of_append_cons hrecords
      have hawaits := awaits_of_declarationOf? hd
      rw [name_toRoutine] at hawaits
      rw [hafter]
      exact List.rel_append hfront (.cons (hn.absorb hawaits ht) hback)

/-- The step for what bodies the records hold. -/
theorem keepsBodies_attach_iff (h : NestedRecords source s forest nested a)
    (hnested : isNested (t.toRoutine source s) = false) :
    KeepsBodies source s nested (a.attach (t.toRoutine source s)) ↔
      KeepsBodies source s nested a ∧
        ¬(t.body.isSome ∧ ∃ d, a.declarationOf? (t.toRoutine source s) = some d ∧
          isNested d = true) := by
  rw [KeepsBodies, KeepsBodies]
  rcases (placed_routines_attach a (t.toRoutine source s)).filter_isNested hnested with
    ⟨heq, hnone⟩ | ⟨front, d, back, hd, hdnested, hdbody, hbefore, hafter⟩
  · rw [heq, and_iff_left]
    rintro ⟨-, d, hd, hdnested⟩
    simp [hnone d hd] at hdnested
  · have hrecords := h.records
    rw [hbefore] at hrecords
    obtain ⟨front', n, back', rfl, hfront, hn, hback⟩ := forall₂_of_append_cons hrecords
    obtain ⟨hnone, hkept⟩ := hn.of_hasBody_eq_false hdbody
    have hfacts := bodyOf_absorb d (t.toRoutine source s)
    rw [hbefore, hafter, List.map_append, List.map_append, List.map_append, List.map_cons,
      List.map_cons, List.map_cons]
    cases htbody : t.body with
    | none =>
      -- Without a body the implementation brings what the record already holds.
      rw [hfacts, hkept, bodyOf_toRoutine_of_none source s htbody,
        bodyOf_toRoutine_of_none source s hnone]
      simp
    | some b =>
      refine iff_of_false (fun heq => ?_) fun ⟨_, hnot⟩ => hnot ⟨rfl, d, hd, hdnested⟩
      have hhead := (List.append_inj heq (by simp [hfront.length_eq])).2
      rw [List.cons_eq_cons, hfacts, bodyOf_toRoutine_of_none source s hnone] at hhead
      have hbody : (t.toRoutine source s).hasBody = false := congrArg Prod.fst hhead.1
      simp [hasBody_toRoutine, htbody] at hbody

/-! ## All top-level routines -/

theorem forall_append_cons_iff {α : Type} {P : List α → α → Prop} {x : α} {xs : List α} :
    (∀ before y after, x :: xs = before ++ y :: after → P before y) ↔
      P [] x ∧ ∀ before y after, xs = before ++ y :: after → P (x :: before) y := by
  constructor
  · intro h
    exact ⟨h [] x xs rfl, fun before y after heq => h (x :: before) y after (by rw [heq]; rfl)⟩
  · rintro ⟨hx, hxs⟩ before y after heq
    rcases List.cons_eq_append_iff.mp heq with ⟨rfl, hcons⟩ | ⟨before', rfl, htail⟩
    · obtain ⟨rfl, -⟩ := List.cons_eq_cons.mp hcons
      exact hx
    · exact hxs before' y after htail

theorem isNested_toRoutine {t : RoutineNode} (h : HasKnownDirectives t) :
    isNested (t.toRoutine source s) = false := by
  obtain ⟨hown, -⟩ := h
  exact isNested_eq_false (by rwa [directives_toRoutine])

theorem nestedRecords_addTopLevel (path : String) (h : NestedRecords source s forest nested a)
    (ht : t ∈ forest) (hknown : HasKnownDirectives t) :
    NestedRecords source s forest (nested ++ t.descendants) (a.addTopLevel path source s t) :=
  (h.withNested t).attach ht (isNested_toRoutine hknown)

theorem keepsBodies_addTopLevel_iff (path : String) (h : NestedRecords source s forest nested a)
    (hknown : HasKnownDirectives t) :
    KeepsBodies source s (nested ++ t.descendants) (a.addTopLevel path source s t) ↔
      KeepsBodies source s nested a ∧ ¬ a.Overtakes path source s t := by
  rw [addTopLevel_eq, keepsBodies_attach_iff (h.withNested t) (isNested_toRoutine hknown),
    keepsBodies_withNested_iff h.methods]
  rfl

/-- The run: the records stand for the nested routines, and hold their bodies exactly when no
routine overtakes one of them when it is put in. -/
theorem nestedRecords_foldl_addTopLevel (path : String) {ts : List RoutineNode}
    (h : NestedRecords source s forest nested a) (hsub : ts ⊆ forest)
    (hknown : ∀ t ∈ ts, HasKnownDirectives t) :
    NestedRecords source s forest (nested ++ ts.flatMap (·.descendants))
        (ts.foldl (addTopLevel path source s) a) ∧
      (KeepsBodies source s (nested ++ ts.flatMap (·.descendants))
          (ts.foldl (addTopLevel path source s) a) ↔
        KeepsBodies source s nested a ∧
          ∀ before t after, ts = before ++ t :: after →
            ¬ (before.foldl (addTopLevel path source s) a).Overtakes path source s t) := by
  induction ts generalizing a nested with
  | nil => simpa using h
  | cons t ts ih =>
    obtain ⟨ht, hts⟩ := List.cons_subset.mp hsub
    obtain ⟨hknownt, hknownts⟩ := List.forall_mem_cons.mp hknown
    obtain ⟨hrecords, hkeeps⟩ := ih (nestedRecords_addTopLevel path h ht hknownt) hts hknownts
    rw [List.flatMap_cons, List.foldl_cons, ← List.append_assoc, hkeeps,
      keepsBodies_addTopLevel_iff path h hknownt, forall_append_cons_iff, and_assoc]
    exact ⟨hrecords, Iff.rfl⟩

end Assembly

/-- The nested records of a unit are one for each nested routine, in order. They hold the bodies of
their routines exactly when no top-level routine with a body is put into one of them. -/
theorem nestedRecords_readUnit (s : ExtractionSettings) (path text : String) :
    List.Forall₂ (StandsFor (Masked.of .pascal text.toList) s (unitForest s text))
        ((unitForest s text).flatMap (·.descendants))
        ((readUnit s path text).allRoutines.filter isNested) ∧
      (((readUnit s path text).allRoutines.filter isNested).map bodyOf =
          ((unitForest s text).flatMap (·.descendants)).map
            (fun n => bodyOf (n.toRoutine (Masked.of .pascal text.toList) s)) ↔
        ∀ before t after, unitForest s text = before ++ t :: after →
          ¬ (before.foldl (Assembly.addTopLevel path (Masked.of .pascal text.toList) s)
              (unitStart s path text)).Overtakes path (Masked.of .pascal text.toList) s t) := by
  have hdeclared : ∀ r ∈ (unitStart s path text).routines, isNested r = false := fun r hr =>
    isNested_eq_false (isDeclared_unitStart s path text r hr).directives_subset
  have hempty : (unitStart s path text).routines.filter isNested = [] :=
    List.filter_eq_nil_iff.mpr fun r hr => by simp [hdeclared r hr]
  have hstart : Assembly.NestedRecords (Masked.of .pascal text.toList) s (unitForest s text) []
      (unitStart s path text) :=
    ⟨by rw [hempty]; exact .nil, fun m hm => hdeclared m (List.mem_append_right _ hm)⟩
  have hkeeps : Assembly.KeepsBodies (Masked.of .pascal text.toList) s []
      (unitStart s path text) := by
    rw [Assembly.KeepsBodies, hempty]
    rfl
  obtain ⟨hrecords, hiff⟩ := Assembly.nestedRecords_foldl_addTopLevel path hstart
    (List.Subset.refl _) (HasKnownDirectives.implementationRoutines _ _ _)
  rw [allRoutines_readUnit]
  exact ⟨hrecords.records, hiff.trans (and_iff_right hkeeps)⟩

end MigrationAudit.Pascal
