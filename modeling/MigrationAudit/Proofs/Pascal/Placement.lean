import MigrationAudit.Pascal.Unit
import Mathlib.Data.List.Basic

/-!
# Where an implementation goes

The implementation of a routine is put into exactly one record: into that of a declaration without a
body, which it completes, or into a new one. All other records stay as they are.
-/

namespace MigrationAudit.Pascal

variable {facts : Routine} {d? : Option Routine} {rs rs' : List Routine}

/-- An implementation put into a list of records: it completes the declaration `d?`, or a record is
added for it when there is none. -/
inductive Placed (facts : Routine) : Option Routine → List Routine → List Routine → Prop
  | completed (front back : List Routine) {d : Routine} (hasBody_eq : d.hasBody = false) :
      Placed facts (some d) (front ++ d :: back) (front ++ absorb d facts :: back)
  | added (front back : List Routine) (visibility : Option Visibility) :
      Placed facts none (front ++ back) (front ++ { facts with visibility } :: back)

theorem Placed.frame (h : Placed facts d? rs rs') (front back : List Routine) :
    Placed facts d? (front ++ (rs ++ back)) (front ++ (rs' ++ back)) := by
  cases h with
  | @completed before after d hbody =>
    simpa using Placed.completed (front ++ before) (after ++ back) hbody
  | added before after visibility =>
    simpa using Placed.added (front ++ before) (after ++ back) visibility

/-- A property that completing a declaration keeps, and that visibility is no part of, holds of all
records. -/
theorem Placed.forall {P : Routine → Prop} (h : Placed facts d? rs rs')
    (hcompleted : ∀ d, P d → d.hasBody = false → P (absorb d facts))
    (hadded : ∀ visibility, P { facts with visibility }) (hrs : ∀ r ∈ rs, P r) :
    ∀ r ∈ rs', P r := by
  cases h with
  | @completed front back d hbody =>
    rw [List.forall_mem_append, List.forall_mem_cons] at hrs ⊢
    exact ⟨hrs.1, hcompleted d hrs.2.1 hbody, hrs.2.2⟩
  | added front back visibility =>
    rw [List.forall_mem_append] at hrs
    rw [List.forall_mem_append, List.forall_mem_cons]
    exact ⟨hrs.1, hadded visibility, hrs.2⟩

/-! ## Declarations that are found -/

/-- The declaration that belongs to an implementation. -/
def declarationAmong? (declared : Array Routine) (candidates : List Nat) (facts : Routine) :
    Option Routine :=
  (findDeclaration? declared candidates facts).bind (declared[·]?)

theorem exists_of_findDeclaration? {declared : Array Routine} {candidates : List Nat} {i : Nat}
    (h : findDeclaration? declared candidates facts = some i) :
    ∃ d, declared[i]? = some d ∧ awaits facts.name d := by
  have hwaiting : (declared[i]?).any (awaits facts.name) := by
    unfold findDeclaration? at h
    simp only at h
    split at h
    · next j hj =>
      obtain rfl := Option.some.inj h
      have := List.find?_some hj
      simp only [Bool.and_eq_true] at this
      exact this.1
    · split at h
      · have := List.find?_some h
        simpa using this
      · simp at h
  exact (Option.any_eq_true ..).mp hwaiting

theorem awaits_iff {name : String} {d : Routine} :
    awaits name d ↔ d.hasBody = false ∧ d.name.toLower = name.toLower := by
  simp [awaits]

theorem awaits_of_declarationAmong? {declared : Array Routine} {candidates : List Nat} {d : Routine}
    (h : declarationAmong? declared candidates facts = some d) : awaits facts.name d := by
  obtain ⟨i, hfound, hd⟩ := Option.bind_eq_some_iff.mp h
  obtain ⟨e, he, hawaits⟩ := exists_of_findDeclaration? hfound
  obtain rfl := Option.some.inj (he.symm.trans hd)
  exact hawaits

theorem placed_modify {i : Nat} {d : Routine} (hd : rs[i]? = some d) (hbody : d.hasBody = false) :
    Placed facts (some d) rs (rs.modify i (absorb · facts)) := by
  obtain ⟨hi, hd⟩ := List.getElem?_eq_some_iff.mp hd
  obtain ⟨front, e, back, hrs, hlength, hmodify⟩ := List.exists_of_modify (absorb · facts) hi
  have he : e = d := by
    rw [← hd]
    simp [hrs, hlength]
  rw [hmodify, hrs, he]
  exact .completed front back hbody

theorem placed_mergeMethod (methods : List Routine) (facts : Routine) :
    Placed facts (declarationAmong? methods.toArray (List.range methods.length) facts) methods
      (mergeMethod methods facts) := by
  rw [declarationAmong?, mergeMethod]
  cases hfound : findDeclaration? methods.toArray (List.range methods.length) facts with
  | none => simpa using Placed.added methods [] facts.visibility
  | some i =>
    obtain ⟨d, hd, hawaits⟩ := exists_of_findDeclaration? hfound
    simp only [Option.bind_some, hd]
    exact placed_modify (by simpa using hd) (awaits_iff.mp hawaits).1

namespace RoutineTable

@[simp] theorem routines_push (t : RoutineTable) (r : Routine) :
    (t.push r).routines.toList = t.routines.toList ++ [r] := by
  simp [push]

/-- The declaration that an implementation completes. -/
def declarationOf? (t : RoutineTable) (facts : Routine) : Option Routine :=
  declarationAmong? t.routines (t.positionsOf facts.name) facts

theorem placed_merge (t : RoutineTable) (facts : Routine) (visibility : Option Visibility) :
    Placed facts (t.declarationOf? facts) t.routines.toList
      (t.merge facts visibility).routines.toList := by
  rw [declarationOf?, declarationAmong?, merge]
  cases hfound : findDeclaration? t.routines (t.positionsOf facts.name) facts with
  | none =>
    rw [Option.bind_none, routines_push]
    simpa using Placed.added t.routines.toList [] (facts.visibility.or visibility)
  | some i =>
    obtain ⟨d, hd, hawaits⟩ := exists_of_findDeclaration? hfound
    simp only [Option.bind_some, hd, Array.toList_modify]
    exact placed_modify (by simpa using hd) (awaits_iff.mp hawaits).1

end RoutineTable

/-! ## Free routines and methods -/

namespace Assembly

def methods (a : Assembly) : List Routine := a.classes.flatMap (·.facts.methods)

def routines (a : Assembly) : List Routine := a.free.routines.toList ++ a.methods

/-- The declaration that an implementation completes: a method of its class, or a free routine. -/
def declarationOf? (a : Assembly) (facts : Routine) : Option Routine :=
  match a.classOf? facts with
  | some i => (a.classes[i]?).bind fun c =>
      declarationAmong? c.facts.methods.toArray (List.range c.facts.methods.length) facts
  | none => if facts.owner.isSome then none else a.free.declarationOf? facts

theorem awaits_of_declarationOf? {a : Assembly} {d : Routine}
    (h : a.declarationOf? facts = some d) : awaits facts.name d := by
  rw [declarationOf?] at h
  split at h
  · obtain ⟨c, -, hd⟩ := Option.bind_eq_some_iff.mp h
    exact awaits_of_declarationAmong? hd
  · split at h
    · simp at h
    · exact awaits_of_declarationAmong? h

theorem exists_of_classOf? {a : Assembly} {i : Nat} (h : a.classOf? facts = some i) :
    ∃ c, a.classes[i]? = some c := by
  rw [classOf?] at h
  obtain ⟨owner, -, hfound⟩ := Option.bind_eq_some_iff.mp h
  have hmatch := List.of_findIdx?_eq_some hfound
  cases hc : a.classes[i]? with
  | none => simp [hc] at hmatch
  | some c => exact ⟨c, rfl⟩

theorem placed_attach (a : Assembly) (facts : Routine) :
    (Placed facts (a.declarationOf? facts) a.methods (a.attach facts).methods ∧
        (a.attach facts).free = a.free) ∨
      (Placed facts (a.declarationOf? facts) a.free.routines.toList
          (a.attach facts).free.routines.toList ∧
        (a.attach facts).classes = a.classes) := by
  rw [declarationOf?, attach]
  cases hclass : a.classOf? facts with
  | some i =>
    left
    obtain ⟨c, hc⟩ := exists_of_classOf? hclass
    obtain ⟨hi, hget⟩ := List.getElem?_eq_some_iff.mp hc
    obtain ⟨front, e, back, hsplit, hlength, hmodify⟩ := List.exists_of_modify
      (fun c : ParsedClass =>
        { c with facts := { c.facts with methods := mergeMethod c.facts.methods facts } }) hi
    have he : e = c := by
      rw [← hget]
      simp [hsplit, hlength]
    refine ⟨?_, rfl⟩
    simp only [hc, Option.bind_some, methods]
    rw [hmodify, hsplit, he]
    simpa using (placed_mergeMethod c.facts.methods facts).frame
      (front.flatMap (·.facts.methods)) (back.flatMap (·.facts.methods))
  | none =>
    right
    simp only
    split
    · refine ⟨?_, rfl⟩
      rw [RoutineTable.routines_push]
      simpa using Placed.added a.free.routines.toList [] facts.visibility
    · exact ⟨RoutineTable.placed_merge .., rfl⟩

/-- An implementation is put into one record of a unit. -/
theorem placed_routines_attach (a : Assembly) (facts : Routine) :
    Placed facts (a.declarationOf? facts) a.routines (a.attach facts).routines := by
  rcases placed_attach a facts with ⟨h, hfree⟩ | ⟨h, hclasses⟩
  · rw [routines, routines, hfree]
    simpa using h.frame a.free.routines.toList []
  · have hmethods : (a.attach facts).methods = a.methods := by rw [methods, methods, hclasses]
    rw [routines, routines, hmethods]
    simpa using h.frame [] a.methods

/-! ## Routines of the implementation -/

variable (path : String) (source : Source.Masked) (s : ExtractionSettings)

/-- The record of a routine that is nested in another one. -/
def nestedRecord (r : RoutineNode) : Routine :=
  { r.toRoutine source s with
    visibility := some .privateAccess
    directives := (r.toRoutine source s).directives ++ ["nested"] }

/-- The unit when the implementation of a top-level routine is put in: all that is nested in the
routine has its records. -/
def withNested (a : Assembly) (r : RoutineNode) : Assembly :=
  let facts := r.toRoutine source s
  r.descendants.foldl (addNested path source s) (a.record path s r facts facts.qualifiedName)

theorem addTopLevel_eq (a : Assembly) (r : RoutineNode) :
    a.addTopLevel path source s r = (a.withNested path source s r).attach (r.toRoutine source s) :=
  rfl

theorem classes_foldl_addNested (a : Assembly) (rs : List RoutineNode) :
    (rs.foldl (addNested path source s) a).classes = a.classes := by
  induction rs generalizing a with
  | nil => rfl
  | cons r rs ih =>
    rw [List.foldl_cons, ih]
    rfl

theorem free_foldl_addNested (a : Assembly) (rs : List RoutineNode) :
    (rs.foldl (addNested path source s) a).free.routines.toList =
      a.free.routines.toList ++ rs.map (nestedRecord source s) := by
  induction rs generalizing a with
  | nil => simp
  | cons r rs ih =>
    have hpush : (a.addNested path source s r).free.routines.toList =
        a.free.routines.toList ++ [nestedRecord source s r] := RoutineTable.routines_push ..
    rw [List.foldl_cons, ih, hpush, List.append_assoc, List.map_cons, List.singleton_append]

@[simp] theorem methods_withNested (a : Assembly) (r : RoutineNode) :
    (a.withNested path source s r).methods = a.methods := by
  rw [methods, withNested, classes_foldl_addNested]
  rfl

@[simp] theorem free_withNested (a : Assembly) (r : RoutineNode) :
    (a.withNested path source s r).free.routines.toList =
      a.free.routines.toList ++ r.descendants.map (nestedRecord source s) :=
  free_foldl_addNested ..

theorem routines_withNested (a : Assembly) (r : RoutineNode) :
    (a.withNested path source s r).routines =
      a.free.routines.toList ++ (r.descendants.map (nestedRecord source s) ++ a.methods) := by
  rw [routines, free_withNested, methods_withNested, List.append_assoc]

end Assembly

end MigrationAudit.Pascal
