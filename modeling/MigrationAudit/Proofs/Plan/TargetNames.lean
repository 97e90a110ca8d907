import MigrationAudit.Plan.Naming
import MigrationAudit.Proofs.Text.LowerCase
import MigrationAudit.Proofs.Text.Pieces

/-!
# Target names

A name that is not blank comes apart into a type letter, a role in front, what is left of it, and a
role at its end; each mark is there when it fits, and something is always left. The target name is
what is left, with a capital letter in front, and it ends in the suffix of its kind.
-/

namespace MigrationAudit

open Text

/-! ## Beginnings and endings -/

namespace Text

variable {front back cs rest : List Char}

theorem dropFront?_eq_some_iff :
    dropFront? front cs = some rest ↔
      ∃ taken, cs = taken ++ rest ∧ lowerLatin taken = lowerLatin front := by
  induction front generalizing cs with
  | nil => simp [dropFront?, lowerLatin, eq_comm]
  | cons p front ih =>
    cases cs with
    | nil => simp [dropFront?, lowerLatin]
    | cons c cs =>
      rw [dropFront?]
      split
      · next hsame =>
        rw [ih]
        constructor
        · rintro ⟨taken, rfl, htaken⟩
          refine ⟨c :: taken, rfl, ?_⟩
          simp_all [lowerLatin]
        · rintro ⟨taken, hcs, htaken⟩
          cases taken with
          | nil => simp [lowerLatin] at htaken
          | cons a taken =>
            obtain ⟨rfl, rfl⟩ := List.cons_eq_cons.mp hcs
            refine ⟨taken, rfl, ?_⟩
            simp_all [lowerLatin]
      · next hother =>
        refine iff_of_false (Option.some_ne_none rest).symm ?_
        rintro ⟨taken, hcs, htaken⟩
        cases taken with
        | nil => simp [lowerLatin] at htaken
        | cons a taken =>
          obtain ⟨rfl, -⟩ := List.cons_eq_cons.mp hcs
          simp_all [lowerLatin]

theorem width_eq_of_lowerLatin (h : lowerLatin front = lowerLatin back) :
    width front = width back := by
  rw [← width_lowerLatin, h, width_lowerLatin]

theorem trim_ne_nil (h : ∃ c ∈ cs, isBlank c = false) : trim cs ≠ [] := by
  obtain ⟨c, hc, hvisible⟩ := h
  rcases exists_trimmed cs with hblank | ⟨lead, text, trail, rfl, hlead, htrail, hstart, hend⟩
  · simp [hblank c hc] at hvisible
  · rw [(trim_append hlead htrail hstart hend).1]
    rintro rfl
    simp [StartsVisibly] at hstart

/-- A text ends like another one, whatever the case of its basic Latin letters. -/
def EndsAlike (cs back : List Char) : Prop :=
  ∃ rest taken, cs = rest ++ taken ∧ lowerLatin taken = lowerLatin back

theorem dropBack?_eq_some_iff :
    dropBack? back cs = some rest ↔
      ∃ taken, cs = rest ++ taken ∧ lowerLatin taken = lowerLatin back := by
  simp only [dropBack?, Option.map_eq_some_iff, dropFront?_eq_some_iff]
  constructor
  · rintro ⟨_, ⟨taken, hcs, htaken⟩, rfl⟩
    refine ⟨taken.reverse, ?_, ?_⟩
    · rw [← List.reverse_append, ← hcs, List.reverse_reverse]
    · rw [lowerLatin_reverse, htaken, ← lowerLatin_reverse, List.reverse_reverse]
  · rintro ⟨taken, rfl, htaken⟩
    refine ⟨rest.reverse, ⟨taken.reverse, List.reverse_append, ?_⟩, List.reverse_reverse rest⟩
    rw [lowerLatin_reverse, lowerLatin_reverse, htaken]

theorem dropBack?_isSome_iff : (dropBack? back cs).isSome = true ↔ EndsAlike cs back := by
  simp only [Option.isSome_iff_exists, dropBack?_eq_some_iff, EndsAlike]

end Text

/-! ## Marks of a name -/

/-- The first of the marks that fits a text is taken off it, or none fits and the text is left. -/
inductive FirstOff {β : Type} (fits : β → List Char → List Char → Prop) (marks : List β)
    (text : List Char) : (taken rest : List Char) → Prop
  | mark {earlier later : List β} {b : β} {taken rest : List Char}
      (marks_eq : marks = earlier ++ b :: later)
      (others : ∀ a ∈ earlier, ∀ taken rest, ¬fits a taken rest) (first : fits b taken rest) :
      FirstOff fits marks text taken rest
  | nothing (none : ∀ a ∈ marks, ∀ taken rest, ¬fits a taken rest) :
      FirstOff fits marks text [] text

/-- What holds when a mark fits, and of the whole text, holds of the parts. -/
theorem FirstOff.elim {β : Type} {fits : β → List Char → List Char → Prop} {marks : List β}
    {text taken rest : List Char} (h : FirstOff fits marks text taken rest)
    {motive : List Char → List Char → Prop} (hmark : ∀ b t r, fits b t r → motive t r)
    (hnothing : motive [] text) : motive taken rest := by
  cases h with
  | mark _ _ hfits => exact hmark _ _ _ hfits
  | nothing => exact hnothing

theorem exists_firstOff {β : Type} {fits : β → List Char → List Char → Prop}
    {read? : β → Option (List Char)}
    (h : ∀ b rest, read? b = some rest ↔ ∃ taken, fits b taken rest) (marks : List β)
    (text : List Char) :
    ∃ taken, FirstOff fits marks text taken ((marks.findSome? read?).getD text) := by
  have hnone {b : β} (hb : read? b = none) (taken rest : List Char) : ¬fits b taken rest := by
    intro hfits
    simp [(h b rest).mpr ⟨taken, hfits⟩] at hb
  cases hfind : marks.findSome? read? with
  | none =>
    rw [List.findSome?_eq_none_iff] at hfind
    exact ⟨[], .nothing fun b hb => hnone (hfind b hb)⟩
  | some rest =>
    obtain ⟨earlier, b, later, hmarks, hb, hearlier⟩ := List.findSome?_eq_some_iff.mp hfind
    obtain ⟨taken, hfits⟩ := (h b rest).mp hb
    exact ⟨taken, .mark hmarks (fun a ha => hnone (hearlier a ha)) hfits⟩

def StartsUpper (cs : List Char) : Prop := cs.head?.any isUppercase = true

theorem StartsUpper.ne_nil {cs : List Char} (h : StartsUpper cs) : cs ≠ [] := by
  rintro rfl
  simp [StartsUpper] at h

/-- A letter stands at the start of a name, and an upper-case character follows. -/
structure LetterFits (name : List Char) (letter : Char) (taken rest : List Char) : Prop where
  name_eq : name = taken ++ rest
  taken_eq : taken = [letter]
  startsUpper : StartsUpper rest

/-- A role stands at the start of a name, and an upper-case character follows it. It is as wide as
the part of the name that it stands for. -/
structure FrontFits (name : List Char) (role : String) (taken rest : List Char) : Prop where
  name_eq : name = taken ++ rest
  same : lowerLatin taken = lowerLatin role.toList
  width_eq : width taken = width role.toList
  startsUpper : StartsUpper rest

/-- A role stands at the end of a name, and something stands in front of it. -/
structure EndFits (name : List Char) (role : String) (taken rest : List Char) : Prop where
  name_eq : name = rest ++ taken
  same : lowerLatin taken = lowerLatin role.toList
  width_eq : width taken = width role.toList
  rest_ne_nil : rest ≠ []

namespace PlanningSettings

variable {α : Type} (s : PlanningSettings α)

theorem exists_dropTypeLetter (name : List Char) :
    ∃ taken,
      FirstOff (LetterFits name) s.typeLetters.toList name taken (s.dropTypeLetter name) := by
  have hnothing (h : ∀ first second rest, name = first :: second :: rest →
      ¬(first ∈ s.typeLetters.toList ∧ isUppercase second = true)) :
      FirstOff (LetterFits name) s.typeLetters.toList name [] name := by
    refine .nothing ?_
    rintro letter hletter taken rest ⟨hname, rfl, hupper⟩
    cases rest with
    | nil => simp [StartsUpper] at hupper
    | cons second rest => exact h letter second rest hname ⟨hletter, hupper⟩
  rw [dropTypeLetter.eq_def]
  split
  · next first second rest =>
    split
    · next hfits =>
      rw [Bool.and_eq_true, List.contains_iff_mem] at hfits
      obtain ⟨earlier, later, hletters, hfirst⟩ := List.eq_append_cons_of_mem hfits.1
      refine ⟨[first], .mark hletters ?_ ⟨rfl, rfl, hfits.2⟩⟩
      rintro letter hletter taken rest' ⟨hname, rfl, -⟩
      obtain ⟨rfl, -⟩ := List.cons_eq_cons.mp hname
      exact hfirst hletter
    · next hnot =>
      refine ⟨[], hnothing ?_⟩
      intro first' second' rest' hname
      simp_all
  · next hshort => exact ⟨[], hnothing fun first second rest hname => absurd hname (hshort _ _ _)⟩

theorem exists_dropRoleFront (name : List Char) :
    ∃ taken, FirstOff (FrontFits name) s.roleFronts name taken (s.dropRoleFront name) := by
  apply exists_firstOff
  intro role rest
  rw [Option.filter_eq_some_iff, dropFront?_eq_some_iff]
  constructor
  · rintro ⟨⟨taken, hname, hsame⟩, hupper⟩
    exact ⟨taken, hname, hsame, width_eq_of_lowerLatin hsame, hupper⟩
  · rintro ⟨taken, hfits⟩
    exact ⟨⟨taken, hfits.name_eq, hfits.same⟩, hfits.startsUpper⟩

theorem exists_dropRoleEnd (name : List Char) :
    ∃ taken, FirstOff (EndFits name) s.roleEnds name taken (s.dropRoleEnd name) := by
  apply exists_firstOff
  intro role rest
  rw [Option.filter_eq_some_iff, dropBack?_eq_some_iff]
  constructor
  · rintro ⟨⟨taken, hname, hsame⟩, hrest⟩
    exact ⟨taken, hname, hsame, width_eq_of_lowerLatin hsame, by simpa using hrest⟩
  · rintro ⟨taken, hfits⟩
    exact ⟨⟨taken, hfits.name_eq, hfits.same⟩, by simpa using hfits.rest_ne_nil⟩

/-- The parts of a name: a type letter, a role in front, the base, and a role at the end. Each mark
is the first one that fits what is left of the name, or it is empty and none fits. -/
structure Parts (name letter front base back : List Char) : Prop where
  name_eq : name = letter ++ (front ++ (base ++ back))
  letter : FirstOff (LetterFits name) s.typeLetters.toList name letter (front ++ (base ++ back))
  front : FirstOff (FrontFits (front ++ (base ++ back))) s.roleFronts
    (front ++ (base ++ back)) front (base ++ back)
  back : FirstOff (EndFits (base ++ back)) s.roleEnds (base ++ back) back base
  base_ne_nil : base ≠ []

variable {s}

theorem exists_parts {name : List Char} (h : trim name ≠ []) :
    ∃ letter front back, s.Parts (trim name) letter front (s.undecorated name) back := by
  obtain ⟨letter, hletter⟩ := s.exists_dropTypeLetter (trim name)
  obtain ⟨front, hfront⟩ := s.exists_dropRoleFront (s.dropTypeLetter (trim name))
  obtain ⟨back, hback⟩ := s.exists_dropRoleEnd (s.dropRoleFront (s.dropTypeLetter (trim name)))
  rw [← undecorated] at hback
  obtain ⟨hname, hbody⟩ := hletter.elim (motive := fun t r => trim name = t ++ r ∧ r ≠ [])
    (fun _ _ _ hfits => ⟨hfits.name_eq, hfits.startsUpper.ne_nil⟩) ⟨rfl, h⟩
  generalize s.dropTypeLetter (trim name) = body at *
  obtain ⟨hfront_eq, hrest⟩ := hfront.elim (motive := fun t r => body = t ++ r ∧ r ≠ [])
    (fun _ _ _ hfits => ⟨hfits.name_eq, hfits.startsUpper.ne_nil⟩) ⟨rfl, hbody⟩
  generalize s.dropRoleFront body = rest at *
  obtain ⟨hback_eq, hbase⟩ := hback.elim (motive := fun t r => rest = r ++ t ∧ r ≠ [])
    (fun _ _ _ hfits => ⟨hfits.name_eq, hfits.rest_ne_nil⟩) ⟨(List.append_nil rest).symm, hrest⟩
  obtain rfl := hfront_eq
  obtain rfl := hback_eq
  exact ⟨letter, front, back, hname, hletter, hfront, hback, hbase⟩

end PlanningSettings

/-! ## Names with suffixes -/

namespace TargetKind

theorem exists_addSuffix (k : TargetKind) (name : List Char) :
    ∃ ending, k.addSuffix name = name ++ ending ∧ EndsAlike (name ++ ending) k.suffix.toList ∧
      (EndsAlike name k.suffix.toList ∧ ending = [] ∨
        ¬EndsAlike name k.suffix.toList ∧ ending = k.suffix.toList) := by
  rw [addSuffix]
  by_cases h : EndsAlike name k.suffix.toList
  · rw [if_pos (dropBack?_isSome_iff.mpr h)]
    exact ⟨[], (List.append_nil name).symm, by rwa [List.append_nil], .inl ⟨h, rfl⟩⟩
  · rw [if_neg (fun hsome => h (dropBack?_isSome_iff.mp hsome))]
    exact ⟨k.suffix.toList, rfl, ⟨name, k.suffix.toList, rfl, rfl⟩, .inr ⟨h, rfl⟩⟩

/-- A source name that is not blank has a base, a part of it without the marks of its role that is
never empty. The name of its target is the base with its first character in upper case, and the
suffix of the kind behind it unless it ends alike already; so it always ends like the suffix. -/
theorem nameFor_parts {α : Type} (s : PlanningSettings α) (k : TargetKind) {source : String}
    (h : ∃ c ∈ source.toList, isBlank c = false) :
    ∃ letter front back c rest ending,
      s.Parts (trim source.toList) letter front (c :: rest) back ∧
        s.undecorated source.toList = c :: rest ∧
        (k.nameFor s source).toList = upperChar c ++ rest ++ ending ∧
        (EndsAlike (upperChar c ++ rest) k.suffix.toList ∧ ending = [] ∨
          ¬EndsAlike (upperChar c ++ rest) k.suffix.toList ∧ ending = k.suffix.toList) ∧
        EndsAlike (k.nameFor s source).toList k.suffix.toList := by
  obtain ⟨letter, front, back, hparts⟩ := PlanningSettings.exists_parts (s := s) (trim_ne_nil h)
  obtain ⟨c, rest, hbase⟩ := List.exists_cons_of_ne_nil hparts.base_ne_nil
  obtain ⟨ending, hname, hends, hcase⟩ := k.exists_addSuffix (capitalize (c :: rest))
  have hnamed : (k.nameFor s source).toList = upperChar c ++ rest ++ ending := by
    rw [nameFor, hbase, String.toList_ofList, hname, capitalize]
  rw [hbase] at hparts
  exact ⟨letter, front, back, c, rest, ending, hparts, hbase, hnamed, hcase, by rwa [hnamed]⟩

/-- A form with all three marks becomes a controller. -/
theorem nameFor_parts_form :
    (∃ c ∈ " TFrmClienteForm ".toList, isBlank c = false) ∧
      nameFor .controller (PlanningSettings.standard (α := Rat)) " TFrmClienteForm " =
        "ClienteController" ∧
      EndsAlike "ClienteController".toList "Controller".toList := by
  have hvisible : ∃ c ∈ " TFrmClienteForm ".toList, isBlank c = false := ⟨'T', by decide, by decide⟩
  have hname : nameFor .controller (PlanningSettings.standard (α := Rat)) " TFrmClienteForm " =
      "ClienteController" := by decide +kernel
  obtain ⟨-, -, -, -, -, -, -, -, -, -, hends⟩ :=
    nameFor_parts (PlanningSettings.standard (α := Rat)) .controller hvisible
  exact ⟨hvisible, hname, hname ▸ hends⟩

end TargetKind

end MigrationAudit
