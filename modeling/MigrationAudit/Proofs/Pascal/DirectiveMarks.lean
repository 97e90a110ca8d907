import MigrationAudit.Proofs.Pascal.BodySections
import MigrationAudit.Proofs.Pascal.Declarations

/-!
# Directives of methods

To the methods of a class a statement is a method, a directive or something else. A method takes all
directives up to the next one, also those that something else stands in front of.
-/

namespace MigrationAudit.Pascal.Members

open Text Source

variable {source : Masked} {s : ExtractionSettings} {owner : String} {m : Members}
  {p : Nat × List Char}

/-- What a statement does to the methods of its class. -/
inductive Mark
  | method (r : Routine)
  | directive (word : String)
  | other
deriving DecidableEq

namespace Mark

def apply (rs : List Routine) : Mark → List Routine
  | .method r => rs ++ [r]
  | .directive word =>
    match rs.getLast? with
    | some last => rs.dropLast ++ [{ last with directives := last.directives ++ [word] }]
    | none => rs
  | .other => rs

/-- The directives that come before the next method. If they are to stand in a row, all of them that
something else stands in front of are left out. -/
def directivesAhead (inRow : Bool) : List Mark → List String
  | .directive word :: marks => word :: directivesAhead inRow marks
  | .other :: marks => if inRow then [] else directivesAhead inRow marks
  | _ => []

/-- The methods, each with the directives that come before the next one. -/
def methods (inRow : Bool) : List Mark → List Routine
  | .method r :: marks =>
    { r with directives := r.directives ++ directivesAhead inRow marks } :: methods inRow marks
  | _ :: marks => methods inRow marks
  | [] => []

theorem foldl_apply_concat (rs : List Routine) (last : Routine) (marks : List Mark) :
    marks.foldl apply (rs ++ [last]) =
      rs ++ { last with directives := last.directives ++ directivesAhead false marks } ::
        methods false marks := by
  induction marks generalizing rs last with
  | nil => simp [directivesAhead, methods]
  | cons mark marks ih =>
    rw [List.foldl_cons]
    cases mark with
    | method r =>
      rw [apply, ih]
      simp [directivesAhead, methods]
    | directive word => simp [apply, ih, directivesAhead, methods]
    | other => simp [apply, ih, directivesAhead, methods]

theorem foldl_apply (marks : List Mark) : marks.foldl apply [] = methods false marks := by
  induction marks with
  | nil => rfl
  | cons mark marks ih =>
    rw [List.foldl_cons]
    cases mark with
    | method r => exact foldl_apply_concat [] r marks
    | directive word => exact ih
    | other => exact ih

/-- A directive with something else right in front of it. -/
def IsStray (marks before : List Mark) : Prop :=
  ∃ word after, marks = before ++ .other :: .directive word :: after

theorem isStray_cons_iff {mark : Mark} {marks before : List Mark} :
    IsStray (mark :: marks) before ↔
      (before = [] ∧ mark = .other ∧ ∃ word after, marks = .directive word :: after) ∨
        ∃ before', before = mark :: before' ∧ IsStray marks before' := by
  cases before with
  | nil => simp [IsStray]
  | cons b before =>
    simp only [IsStray, List.cons_append, List.cons.injEq, reduceCtorEq, false_and, false_or]
    constructor
    · rintro ⟨word, after, rfl, hmarks⟩
      exact ⟨before, ⟨rfl, rfl⟩, word, after, hmarks⟩
    · rintro ⟨before', ⟨rfl, rfl⟩, word, after, hmarks⟩
      exact ⟨word, after, rfl, hmarks⟩

/-- What a mark in front changes about strays: nothing is said of a method there, and a directive
right behind the mark may be one. -/
theorem forall_isStray_cons_iff {mark : Mark} {marks : List Mark} {P : List Mark → Prop} :
    (∀ before, IsStray (mark :: marks) before → P before) ↔
      (mark = .other → (∃ word after, marks = .directive word :: after) → P []) ∧
        ∀ before, IsStray marks before → P (mark :: before) := by
  simp only [isStray_cons_iff]
  constructor
  · intro h
    exact ⟨fun hmark hmarks => h [] (.inl ⟨rfl, hmark, hmarks⟩),
      fun before hbefore => h _ (.inr ⟨before, rfl, hbefore⟩)⟩
  · rintro ⟨hfirst, hrest⟩ before (⟨rfl, hmark, hmarks⟩ | ⟨before, rfl, hbefore⟩)
    · exact hfirst hmark hmarks
    · exact hrest before hbefore

/-- All directives before the next method stand in a row exactly when none of them is a stray. -/
theorem directivesAhead_eq_iff (marks : List Mark) :
    directivesAhead false marks = directivesAhead true marks ↔
      ∀ before, IsStray marks before → ∃ r, .method r ∈ before := by
  induction marks with
  | nil => simp [directivesAhead, IsStray]
  | cons mark marks ih =>
    rw [forall_isStray_cons_iff]
    cases mark with
    | method r => simp [directivesAhead]
    | directive word => simp [directivesAhead, ih]
    | other =>
      have hrest : (∀ before, IsStray marks before → ∃ r, .method r ∈ Mark.other :: before) ↔
          directivesAhead false marks = directivesAhead true marks := by simp [ih]
      rw [hrest]
      cases marks with
      | nil => simp [directivesAhead]
      | cons mark marks => cases mark <;> simp [directivesAhead]

/-- All methods have their directives in a row exactly when no stray stands behind a method. -/
theorem methods_eq_iff (marks : List Mark) :
    methods false marks = methods true marks ↔
      ∀ before, IsStray marks before → ∀ r, .method r ∉ before := by
  induction marks with
  | nil => simp [methods, IsStray]
  | cons mark marks ih =>
    rw [forall_isStray_cons_iff]
    cases mark with
    | method r =>
      have hcons : methods false (.method r :: marks) = methods true (.method r :: marks) ↔
          directivesAhead false marks = directivesAhead true marks ∧
            methods false marks = methods true marks := by
        simp [methods]
      rw [hcons, directivesAhead_eq_iff, ih]
      constructor
      · rintro ⟨hsome, hnone⟩
        refine ⟨nofun, fun before hbefore => ?_⟩
        obtain ⟨r', hr'⟩ := hsome before hbefore
        exact absurd hr' (hnone before hbefore r')
      · rintro ⟨-, h⟩
        have hno : ∀ before, ¬IsStray marks before := fun before hbefore =>
          h before hbefore r List.mem_cons_self
        exact ⟨fun before hbefore => absurd hbefore (hno before),
          fun before hbefore => absurd hbefore (hno before)⟩
    | directive word => simp [methods, ih]
    | other => simp [methods, ih]

end Mark

variable (source s owner) in
/-- What a statement does to the methods, by the first word of its declaration. -/
def markOf (m : Members) (p : Nat × List Char) : Mark :=
  if 0 < m.recordDepth then .other
  else
    let (context, c) := m.declarationIn p
    match declarationStart c.after with
    | .header _ =>
      (Header.parse? c.after).elim .other fun h =>
        .method
          { h.toRoutine (source.lineAt c.offset) with
            owner := some owner
            visibility := some context.visibility
            isClassLevel := context.classLevel
            isEventHandler := s.isEventHandler h.name ||
              (h.toRoutine (source.lineAt c.offset)).takesSender }
    | .directive word => .directive word
    | _ => .other

variable (source s owner) in
def marksOf (m : Members) : List (Nat × List Char) → List Mark
  | [] => []
  | p :: ps => markOf source s owner m p :: marksOf (note source s owner m p) ps

/-- The step: a statement changes the methods by its mark. -/
theorem methods_note :
    (note source s owner m p).methods = Mark.apply m.methods (markOf source s owner m p) := by
  by_cases hdepth : 0 < m.recordDepth
  · rw [note_of_recordDepth hdepth, markOf, if_pos hdepth]
    rfl
  rw [note_of_outside (by omega), markOf, if_neg hdepth]
  simp only
  split
  · next hempty =>
    rw [List.isEmpty_iff.mp hempty]
    rfl
  · rw [readDeclaration_eq]
    cases declarationStart (m.declarationIn p).2.after with
    | header word => cases Header.parse? (m.declarationIn p).2.after <;> rfl
    | directive word =>
      simp only [addDirective, Mark.apply]
      split <;> simp_all
    | property =>
      cases property? (m.declarationIn p).2.after (m.declarationIn p).1.visibility
        (source.lineAt (m.declarationIn p).2.offset) <;> rfl
    | other =>
      simp only
      split
      · rfl
      · exact methods_readFields ..

/-- The run: the methods are those of the marks. -/
theorem methods_foldl (ps : List (Nat × List Char)) (m : Members) :
    (ps.foldl (note source s owner) m).methods =
      (marksOf source s owner m ps).foldl Mark.apply m.methods := by
  induction ps generalizing m with
  | nil => rfl
  | cons p ps ih => rw [List.foldl_cons, ih, methods_note, marksOf, List.foldl_cons]

end MigrationAudit.Pascal.Members
