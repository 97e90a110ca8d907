import MigrationAudit.Proofs.Pascal.Declarations
import MigrationAudit.Proofs.Pascal.Laminar

/-!
# Every body is accounted for once

What is known of the bodies in a unit - their branches and their calls - is what is read off the
bodies of the implementation: none is lost, none is kept twice, and a routine without a body has no
branches.
-/

namespace MigrationAudit.Pascal

open Text Source

/-- The branches and the calls of the routines that have a body. -/
def bodyFacts (rs : List Routine) : List (Nat × List String) :=
  (rs.filter (·.hasBody)).map fun r => (r.complexity, r.callHints)

/-- A routine without a body has no branches. -/
def IsUnbranched (r : Routine) : Prop := r.hasBody = false → r.complexity = 1

@[simp] theorem bodyFacts_append (rs more : List Routine) :
    bodyFacts (rs ++ more) = bodyFacts rs ++ bodyFacts more := by
  simp [bodyFacts]

theorem bodyFacts_cons (r : Routine) (rs : List Routine) :
    bodyFacts (r :: rs) = bodyFacts [r] ++ bodyFacts rs := bodyFacts_append [r] rs

theorem bodyFacts_eq_nil {rs : List Routine} (h : ∀ r ∈ rs, IsDeclared r) : bodyFacts rs = [] := by
  rw [bodyFacts, List.filter_eq_nil_iff.mpr fun r hr => by simp [(h r hr).hasBody_eq], List.map_nil]

/-! ## One routine -/

theorem bodyFacts_toRoutine (source : Masked) (s : ExtractionSettings) (r : RoutineNode) :
    bodyFacts [r.toRoutine source s] =
      (r.body.map fun b =>
        (complexity (b.slice source.code), callHints (b.slice source.code))).toList := by
  rw [RoutineNode.toRoutine]
  cases r.body <;> rfl

theorem isUnbranched_toRoutine (source : Masked) (s : ExtractionSettings) (r : RoutineNode) :
    IsUnbranched (r.toRoutine source s) := by
  rw [RoutineNode.toRoutine]
  cases r.body with
  | none => exact fun _ => rfl
  | some body => exact nofun

theorem bodyFacts_map_toRoutine (source : Masked) (s : ExtractionSettings) (rs : List RoutineNode) :
    bodyFacts (rs.map (·.toRoutine source s)) =
      (rs.filterMap (·.body)).map fun b =>
        (complexity (b.slice source.code), callHints (b.slice source.code)) := by
  induction rs with
  | nil => rfl
  | cons r rs ih =>
    rw [List.map_cons, bodyFacts_cons, bodyFacts_toRoutine, ih]
    cases hbody : r.body <;> simp [hbody]

/-! ## Implementations -/

theorem Placed.bodyFacts_perm {facts : Routine} {d? : Option Routine} {rs rs' : List Routine}
    (h : Placed facts d? rs rs') : (bodyFacts rs').Perm (bodyFacts rs ++ bodyFacts [facts]) := by
  cases h with
  | @completed front back d hbody =>
    have hd : bodyFacts [d] = [] := by simp [bodyFacts, hbody]
    have habsorb : bodyFacts [absorb d facts] = bodyFacts [facts] := by
      cases hfacts : facts.hasBody <;> simp [bodyFacts, absorb, hfacts]
    rw [bodyFacts_append, bodyFacts_append, bodyFacts_cons, bodyFacts_cons d, hd, habsorb]
    simpa using List.perm_append_comm.append_left (bodyFacts front)
  | added front back visibility =>
    have hfacts : bodyFacts [{ facts with visibility }] = bodyFacts [facts] := by
      cases hfacts : facts.hasBody <;> simp [bodyFacts, hfacts]
    rw [bodyFacts_append, bodyFacts_append, bodyFacts_cons, hfacts]
    simpa using List.perm_append_comm.append_left (bodyFacts front)

namespace Assembly

variable (path : String) (source : Masked) (s : ExtractionSettings)

theorem bodyFacts_nestedRecords (rs : List RoutineNode) :
    bodyFacts (rs.map (nestedRecord source s)) = bodyFacts (rs.map (·.toRoutine source s)) := by
  induction rs with
  | nil => rfl
  | cons r rs ih =>
    have hrecord : bodyFacts [nestedRecord source s r] = bodyFacts [r.toRoutine source s] := by
      cases hbody : (r.toRoutine source s).hasBody <;> simp [bodyFacts, nestedRecord, hbody]
    rw [List.map_cons, List.map_cons, bodyFacts_cons, bodyFacts_cons (r.toRoutine source s),
      hrecord, ih]

/-- The step: a top-level routine brings its body and the bodies nested in it. -/
theorem bodyFacts_addTopLevel (a : Assembly) (r : RoutineNode) :
    (bodyFacts (a.addTopLevel path source s r).routines).Perm
      (bodyFacts a.routines ++ bodyFacts ((r :: r.descendants).map (·.toRoutine source s))) := by
  rw [addTopLevel_eq]
  refine (placed_routines_attach ..).bodyFacts_perm.trans ?_
  rw [routines_withNested, routines, bodyFacts_append, bodyFacts_append, bodyFacts_nestedRecords,
    List.map_cons, bodyFacts_cons (r.toRoutine source s) (r.descendants.map _), bodyFacts_append,
    List.append_assoc, List.append_assoc, List.append_assoc]
  refine List.Perm.append_left _ ?_
  rw [← List.append_assoc (bodyFacts a.methods)]
  exact List.perm_append_comm

/-- The run: all top-level routines bring the bodies at every depth. -/
theorem bodyFacts_foldl_addTopLevel (a : Assembly) (forest : List RoutineNode) :
    (bodyFacts (forest.foldl (addTopLevel path source s) a).routines).Perm
      (bodyFacts a.routines ++
        bodyFacts ((RoutineNode.descendantsOf forest).map (·.toRoutine source s))) := by
  induction forest generalizing a with
  | nil => simp [bodyFacts]
  | cons r forest ih =>
    have hsplit : (RoutineNode.descendantsOf (r :: forest)).map (·.toRoutine source s) =
        (r :: r.descendants).map (·.toRoutine source s) ++
          (RoutineNode.descendantsOf forest).map (·.toRoutine source s) := by
      rw [RoutineNode.descendantsOf_cons, ← RoutineNode.descendants_eq]
      simp
    rw [List.foldl_cons, hsplit, bodyFacts_append, ← List.append_assoc]
    exact (ih _).trans ((bodyFacts_addTopLevel path source s a r).append_right _)

theorem isUnbranched_addTopLevel {a : Assembly} (h : ∀ r ∈ a.routines, IsUnbranched r)
    (r : RoutineNode) : ∀ m ∈ (a.addTopLevel path source s r).routines, IsUnbranched m := by
  have hfacts := isUnbranched_toRoutine source s r
  rw [addTopLevel_eq]
  refine (placed_routines_attach ..).forall (fun d _ _ => hfacts) (fun _ => hfacts) ?_
  rw [routines_withNested]
  obtain ⟨hfree, hmethods⟩ := List.forall_mem_append.mp h
  refine List.forall_mem_append.mpr ⟨hfree, List.forall_mem_append.mpr ⟨?_, hmethods⟩⟩
  rintro m hm
  obtain ⟨n, -, rfl⟩ := List.mem_map.mp hm
  exact isUnbranched_toRoutine source s n

theorem isUnbranched_foldl_addTopLevel {a : Assembly} (h : ∀ r ∈ a.routines, IsUnbranched r)
    (forest : List RoutineNode) :
    ∀ m ∈ (forest.foldl (addTopLevel path source s) a).routines, IsUnbranched m := by
  induction forest generalizing a with
  | nil => exact h
  | cons r forest ih => exact ih (isUnbranched_addTopLevel path source s h r)

end Assembly

/-- The bodies of a unit are those of its implementation, each once, at whatever depth it stands. -/
theorem bodies_readUnit (s : ExtractionSettings) (path text : String) :
    (((readUnit s path text).allRoutines.filter (·.hasBody)).map fun r =>
        (r.complexity, r.callHints)).Perm
      ((RoutineNode.bodies (unitForest s text)).map fun b =>
        (complexity (b.slice (Masked.of .pascal text.toList).code),
          callHints (b.slice (Masked.of .pascal text.toList).code))) ∧
      ∀ r ∈ (readUnit s path text).allRoutines, r.hasBody = false → r.complexity = 1 := by
  have hstart := isDeclared_unitStart s path text
  rw [allRoutines_readUnit, unitDone]
  refine ⟨?_, Assembly.isUnbranched_foldl_addTopLevel path _ s
    (fun r hr _ => (hstart r hr).complexity_eq) _⟩
  have hrun := Assembly.bodyFacts_foldl_addTopLevel path (Masked.of .pascal text.toList) s
    (unitStart s path text) (unitForest s text)
  rwa [bodyFacts_eq_nil hstart, List.nil_append, bodyFacts_map_toRoutine] at hrun

end MigrationAudit.Pascal
