import MigrationAudit.Proofs.Pascal.Placement

/-!
# Routines found by their names

A table of free routines keeps the positions of the routines of each name. Whatever is pushed and
merged, these are all positions of that name, in order. So an implementation completes the
declaration that a search among all routines finds, and the routines are those that a list has when
it is searched from its start each time, as the methods of a class are.
-/

namespace MigrationAudit.Pascal

variable {declared : Array Routine} {candidates : List Nat} {r : Routine}

/-- A search may leave out candidates that do not wait for the implementation. -/
theorem findDeclaration?_filter {p : Nat → Bool}
    (hp : ∀ i, (declared[i]?.any (awaits r.name)) = true → p i = true) :
    findDeclaration? declared (candidates.filter p) r = findDeclaration? declared candidates r := by
  have hwaiting (i : Nat) :
      (p i && declared[i]?.any (awaits r.name)) = declared[i]?.any (awaits r.name) :=
    Bool.and_eq_right_iff_imp.mpr (hp i)
  simp only [findDeclaration?, List.find?_filter, Bool.decide_and, Bool.decide_eq_true,
    ← Bool.and_assoc, hwaiting]

namespace RoutineTable

/-- What is done to a table of free routines. -/
inductive Edit
  | push (r : Routine)
  | merge (implementation : Routine) (visibility : Option Visibility)

def edit (t : RoutineTable) : Edit → RoutineTable
  | .push r => t.push r
  | .merge implementation visibility => t.merge implementation visibility

/-- The same edit of a plain list. The declaration of an implementation is searched among all
routines, as it is among the methods of a class; an implementation without one is added with its
visibility. -/
def editList (rs : List Routine) : Edit → List Routine
  | .push r => rs ++ [r]
  | .merge implementation visibility =>
    mergeMethod rs { implementation with visibility := implementation.visibility.or visibility }

/-- For each name in lower case, the index lists all positions of the routines of that name and no
others, in order. -/
structure IsIndexed (t : RoutineTable) : Prop where
  ordered : ∀ key, (t.positions.getD key []).Pairwise (· < ·)
  mem_iff : ∀ key i, i ∈ t.positions.getD key [] ↔
    ∃ r, t.routines[i]? = some r ∧ r.name.toLower = key

namespace IsIndexed

variable {t : RoutineTable}

theorem empty : IsIndexed {} where
  ordered key := by simp
  mem_iff key i := by simp

theorem lt_size (h : t.IsIndexed) {key : String} {i : Nat} (hi : i ∈ t.positions.getD key []) :
    i < t.routines.size := by
  obtain ⟨r, hr, -⟩ := (h.mem_iff key i).mp hi
  exact (Array.getElem?_eq_some_iff.mp hr).1

theorem push (h : t.IsIndexed) (r : Routine) : (t.push r).IsIndexed := by
  have hpositions (key : String) : (t.push r).positions.getD key [] =
      t.positions.getD key [] ++ if r.name.toLower = key then [t.routines.size] else [] := by
    rw [RoutineTable.push, Std.HashMap.getD_insert]
    by_cases hkey : r.name.toLower = key
    · simp [hkey, positionsOf]
    · simp [hkey]
  constructor
  case ordered =>
    intro key
    rw [hpositions, List.pairwise_append]
    refine ⟨h.ordered key, by split <;> simp, fun i hi j hj => ?_⟩
    -- the new position is behind all others
    obtain rfl : j = t.routines.size := by
      split at hj
      · exact List.mem_singleton.mp hj
      · exact absurd hj List.not_mem_nil
    exact h.lt_size hi
  case mem_iff =>
    intro key i
    rw [hpositions, List.mem_append, h.mem_iff, RoutineTable.push, Array.getElem?_push]
    by_cases hi : i = t.routines.size
    · by_cases hkey : r.name.toLower = key <;> simp [hi, hkey]
    · by_cases hkey : r.name.toLower = key <;> simp [hi, hkey]

theorem modify (h : t.IsIndexed) (i : Nat) {f : Routine → Routine} (hf : ∀ r, (f r).name = r.name) :
    IsIndexed { t with routines := t.routines.modify i f } := by
  refine ⟨h.ordered, fun key j => ?_⟩
  rw [h.mem_iff, Array.getElem?_modify]
  split
  · simp [hf]
  · rfl

theorem merge (h : t.IsIndexed) (implementation : Routine) (visibility : Option Visibility) :
    (t.merge implementation visibility).IsIndexed := by
  rw [RoutineTable.merge]
  split
  · exact h.modify _ fun _ => rfl
  · exact h.push _

/-- The step: an edit keeps the index. -/
theorem edit (h : t.IsIndexed) (e : Edit) : (t.edit e).IsIndexed := by
  cases e with
  | push r => exact h.push r
  | merge implementation visibility => exact h.merge implementation visibility

theorem positionsOf_eq (h : t.IsIndexed) (name : String) :
    t.positionsOf name = (List.range t.routines.size).filter fun i =>
      t.routines[i]?.any fun r => r.name.toLower == name.toLower := by
  have hrange : ((List.range t.routines.size).filter fun i =>
      t.routines[i]?.any fun r => r.name.toLower == name.toLower).Pairwise (· < ·) :=
    List.pairwise_lt_range.filter _
  have hnodup {l : List Nat} (hl : l.Pairwise (· < ·)) : l.Nodup := hl.imp Nat.ne_of_lt
  refine List.Perm.eq_of_pairwise (fun i j _ _ hij hji => ?_) (h.ordered _) hrange
    ((List.perm_ext_iff_of_nodup (hnodup (h.ordered _)) (hnodup hrange)).mpr fun i => ?_)
  · exact absurd hij (Nat.lt_asymm hji)
  · rw [List.mem_filter, List.mem_range, h.mem_iff]
    constructor
    · rintro ⟨r, hr, hname⟩
      exact ⟨(Array.getElem?_eq_some_iff.mp hr).1, by simp [hr, hname]⟩
    · rintro ⟨-, hany⟩
      simpa [Option.any_eq_true] using hany

/-- Among the positions of its name an implementation finds what it finds among all. -/
theorem findDeclaration?_eq (h : t.IsIndexed) (implementation : Routine) :
    findDeclaration? t.routines (t.positionsOf implementation.name) implementation =
      findDeclaration? t.routines (List.range t.routines.size) implementation := by
  rw [h.positionsOf_eq]
  refine findDeclaration?_filter fun i hi => ?_
  obtain ⟨d, hd, hawaits⟩ := (Option.any_eq_true ..).mp hi
  simp [hd, (awaits_iff.mp hawaits).2]

/-- The step: the routines are those that a search among all of them leaves. -/
theorem routines_edit (h : t.IsIndexed) (e : Edit) :
    (t.edit e).routines.toList = editList t.routines.toList e := by
  cases e with
  | push r => exact routines_push t r
  | merge implementation visibility =>
    have hfind : findDeclaration? t.routines.toList.toArray (List.range t.routines.toList.length)
        { implementation with visibility := implementation.visibility.or visibility } =
          findDeclaration? t.routines (t.positionsOf implementation.name) implementation :=
      (h.findDeclaration?_eq implementation).symm
    rw [RoutineTable.edit, RoutineTable.merge, editList, mergeMethod, hfind]
    split
    · exact Array.toList_modify ..
    · exact routines_push ..

end IsIndexed

theorem foldl_edit {t : RoutineTable} (h : t.IsIndexed) (edits : List Edit) :
    (edits.foldl edit t).IsIndexed ∧
      (edits.foldl edit t).routines.toList = edits.foldl editList t.routines.toList := by
  induction edits generalizing t with
  | nil => exact ⟨h, rfl⟩
  | cons e edits ih =>
    rw [List.foldl_cons, List.foldl_cons, ← h.routines_edit]
    exact ih (h.edit e)

/-- Whatever is pushed and merged, the routines are those that searches among all of them leave, and
the index lists the positions of each name, so that the same declaration is found either way. -/
theorem edited_searchesAll (edits : List Edit) :
    let t := edits.foldl edit {}
    t.routines.toList = edits.foldl editList [] ∧ t.IsIndexed ∧
      ∀ implementation,
        findDeclaration? t.routines (t.positionsOf implementation.name) implementation =
          findDeclaration? t.routines (List.range t.routines.size) implementation := by
  obtain ⟨hindexed, hroutines⟩ := foldl_edit .empty edits
  exact ⟨hroutines, hindexed, hindexed.findDeclaration?_eq⟩

end RoutineTable

end MigrationAudit.Pascal
