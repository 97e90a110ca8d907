import MigrationAudit.Pascal.DataAccess
import MigrationAudit.Proofs.Pascal.EarlierClasses
import MigrationAudit.Proofs.Text.Pieces

/-!
# Names declared with a type

Component names are collected wherever a name, a colon, a type and a mark stand one behind the other
in a text, whatever else the text declares there. The type has to be a single word with a capital T.
-/

namespace MigrationAudit.Pascal

open Text Source

variable {code name type gap gap' gap'' front back : List Char} {c : Cursor} {mark : Char}

/-- A name as declarations of components are looked for by. -/
structure IsPatternName (name : List Char) : Prop where
  start : name.head?.any (fun a => a.isAlpha || a == '_') = true
  chars : ∀ a ∈ name, isNameChar a = true

instance (name : List Char) : Decidable (IsPatternName name) :=
  @decidable_of_iff _ (_ ∧ _) ⟨fun ⟨h, k⟩ => ⟨h, k⟩, fun h => ⟨h.start, h.chars⟩⟩
    (@instDecidableAnd _ _ inferInstance (List.decidableBAll _ name))

/-- A type as declarations of components are looked for by: a single word behind a capital T. -/
structure IsPatternType (type : List Char) : Prop where
  start : type.head? = some 'T'
  length : 2 ≤ type.length
  chars : ∀ a ∈ type, isNameChar a = true

instance (type : List Char) : Decidable (IsPatternType type) :=
  @decidable_of_iff _ (_ ∧ _ ∧ _)
    ⟨fun ⟨h, k, l⟩ => ⟨h, k, l⟩, fun h => ⟨h.start, h.length, h.chars⟩⟩
    (@instDecidableAnd _ _ inferInstance
      (@instDecidableAnd _ _ inferInstance (List.decidableBAll _ type)))

/-- A character that may stand behind the type of a component. -/
def isTypeMark (a : Char) : Bool := a == ';' || a == ')' || a == '='

/-- A text declares a name with a type, in the form in which components are looked for. -/
structure Declares (code name type : List Char) : Prop where
  isName : IsPatternName name
  isType : IsPatternType type
  stands : ∃ front gap gap' gap'' mark back,
    code = front ++ (name ++ (gap ++ ':' :: (gap' ++ (type ++ (gap'' ++ mark :: back))))) ∧
      front.getLast?.any isNameChar = false ∧ (∀ a ∈ gap ++ (gap' ++ gap''), isBlank a = true) ∧
      isTypeMark mark = true

/-! ## Ends of names -/

theorem isBlank_of_isNameChar {a : Char} (h : isNameChar a = true) : isBlank a = false := by
  by_contra hblank
  rw [isNameChar_of_isBlank (by simpa using hblank)] at h
  exact absurd h (by simp)

theorem isNameChar_colon : isNameChar ':' = false := (isNameChar_of_ascii (by decide)).1

theorem isNameChar_comma : isNameChar ',' = false := (isNameChar_of_ascii (by decide)).1

theorem isNameChar_of_isTypeMark (h : isTypeMark mark = true) :
    isNameChar mark = false ∧ isBlank mark = false := by
  obtain rfl | rfl | rfl : mark = ';' ∨ mark = ')' ∨ mark = '=' := by
    simpa [isTypeMark, or_assoc] using h
  · exact ⟨(isNameChar_of_ascii (by decide)).1, rfl⟩
  · exact ⟨(isNameChar_of_ascii (by decide)).1, rfl⟩
  · exact ⟨(isNameChar_of_ascii (by decide)).1, rfl⟩

theorem head?_any_blank_append {p : Char → Bool} {a : Char} {rest : List Char}
    (hgap : ∀ b ∈ gap, p b = false) (ha : p a = false) :
    (gap ++ a :: rest).head?.any p = false := by
  cases gap with
  | nil => simpa using ha
  | cons b gap => simpa using hgap b List.mem_cons_self

/-! ## Reading a declaration -/

theorem typedName?_of_after
    (hafter : c.after = name ++ (gap ++ ':' :: (gap' ++ (type ++ (gap'' ++ mark :: back)))))
    (hbefore : c.before.head?.any isNameChar = false)
    (hgap : ∀ a ∈ gap ++ (gap' ++ gap''), isBlank a = true) (hname : IsPatternName name)
    (htype : IsPatternType type) (hmark : isTypeMark mark = true) :
    typedName? c = some (name, type) := by
  simp only [List.forall_mem_append] at hgap
  obtain ⟨hgap, hgap', hgap''⟩ := hgap
  obtain ⟨hmarkName, hmarkBlank⟩ := isNameChar_of_isTypeMark hmark
  have hnameEnd : (gap ++ ':' :: (gap' ++ (type ++ (gap'' ++ mark :: back)))).head?.any isNameChar =
      false :=
    head?_any_blank_append (fun a ha => isNameChar_of_isBlank (hgap a ha)) isNameChar_colon
  have htypeEnd : (gap'' ++ mark :: back).head?.any isNameChar = false :=
    head?_any_blank_append (fun a ha => isNameChar_of_isBlank (hgap'' a ha)) hmarkName
  obtain ⟨a, name', rfl⟩ : ∃ a name', name = a :: name' :=
    List.exists_cons_of_ne_nil fun hnil => by simpa [hnil] using hname.start
  obtain ⟨b, type', rfl⟩ : ∃ b type', type = b :: type' :=
    List.exists_cons_of_ne_nil fun hnil => by simpa [hnil] using htype.start
  have ha : isNameChar a = true := hname.chars a List.mem_cons_self
  have hb : isBlank b = false := isBlank_of_isNameChar (htype.chars b List.mem_cons_self)
  have hrun : c.after.takeWhile isNameChar = a :: name' := by
    rw [hafter, takeWhile_append_of_head? hname.chars hnameEnd]
  have hcolon : (c.skipWhile isNameChar).skipBlank.after =
      ':' :: (gap' ++ (b :: type' ++ (gap'' ++ mark :: back))) := by
    rw [Cursor.skipWhile_of_after hafter hname.chars hnameEnd, Cursor.skipBlank,
      Cursor.skipWhile_of_after (Cursor.after_advance ..) hgap (by rfl), Cursor.after_advance]
  have htrim : trimStart (gap' ++ (b :: type' ++ (gap'' ++ mark :: back))) =
      b :: type' ++ (gap'' ++ mark :: back) :=
    dropWhile_append_of_head? hgap' (by simpa using hb)
  have hstart : (c.atRunStart isNameChar &&
      (a :: name').head?.any fun a => a.isAlpha || a == '_') = true := by
    rw [Cursor.atRunStart, hbefore, hafter]
    simpa [ha] using hname.start
  have hclosed : trimStart (gap'' ++ mark :: back) = mark :: back :=
    dropWhile_append_of_head? hgap'' (by simpa using hmarkBlank)
  have htypeTest : ((b :: type').head? == some 'T' && decide (2 ≤ (b :: type').length) &&
      isTypeMark mark) = true := by
    rw [hmark, htype.start]
    simpa using htype.length
  simp only [typedName?, hrun, hcolon, htrim, takeWhile_append_of_head? htype.chars htypeEnd,
    dropWhile_append_of_head? htype.chars htypeEnd, hclosed]
  rw [hstart]
  exact if_pos htypeTest

theorem of_typedName? (h : typedName? c = some (name, type)) :
    c.before.head?.any isNameChar = false ∧ IsPatternName name ∧ IsPatternType type ∧
      ∃ gap gap' gap'' mark back,
        c.after = name ++ (gap ++ ':' :: (gap' ++ (type ++ (gap'' ++ mark :: back)))) ∧
          (∀ a ∈ gap ++ (gap' ++ gap''), isBlank a = true) ∧ isTypeMark mark = true := by
  unfold typedName? at h
  split at h
  · next rest hcolon =>
    simp only [Bool.not_and, Bool.or_eq_true, Bool.not_eq_eq_eq_not, Bool.not_true,
      Bool.and_eq_true, beq_iff_eq, decide_eq_true_eq, Option.ite_none_left_eq_some, not_or,
      Bool.not_eq_false, Option.ite_none_right_eq_some, Option.some.injEq, Prod.mk.injEq] at h
    obtain ⟨⟨hrun, hstart⟩, ⟨⟨htypeStart, hlength⟩, hclosed⟩, rfl, rfl⟩ := h
    obtain ⟨mark, back, hback, hmark⟩ : ∃ mark back,
        trimStart ((trimStart rest).dropWhile isNameChar) = mark :: back ∧
          isTypeMark mark = true := by
      split at hclosed
      · next mark back hback => exact ⟨mark, back, hback, hclosed⟩
      · simp at hclosed
    have hbefore : c.before.head?.any isNameChar = false := by
      simpa using (Bool.and_eq_true_iff.mp hrun).2
    have hchars : ∀ (p : Char → Bool) (cs : List Char), ∀ a ∈ cs.takeWhile p, p a = true :=
      fun p cs a ha => List.mem_takeWhile_imp ha
    have hafter : (c.after.dropWhile isNameChar).dropWhile isBlank = ':' :: rest := hcolon
    refine ⟨hbefore, ⟨hstart, hchars _ _⟩, ⟨htypeStart, hlength, hchars _ _⟩,
      (c.after.dropWhile isNameChar).takeWhile isBlank, rest.takeWhile isBlank,
      ((trimStart rest).dropWhile isNameChar).takeWhile isBlank, mark, back, ?_, ?_, hmark⟩
    · rw [← hback]
      simp only [trimStart, List.takeWhile_append_dropWhile, ← hafter]
    · simp only [List.forall_mem_append]
      exact ⟨hchars _ _, hchars _ _, hchars _ _⟩
  · simp at h

theorem mem_places (front : List Char) (a : Char) (back : List Char) :
    (⟨width front, front.reverse, a :: back⟩ : Cursor) ∈ Cursor.places (front ++ a :: back) := by
  rw [Cursor.places, Cursor.placesFrom_append, Nat.zero_add, List.append_nil]
  exact List.mem_append_right _ List.mem_cons_self

/-- A name and a type are read somewhere in a text just if the text declares them. -/
theorem mem_filterMap_typedName?_iff :
    (name, type) ∈ (Cursor.places code).filterMap typedName? ↔ Declares code name type := by
  rw [List.mem_filterMap]
  constructor
  · rintro ⟨c, hc, hread⟩
    obtain ⟨hlead, -⟩ := Cursor.leads_of_mem_placesFrom c hc
    obtain ⟨hbefore, hname, htype, gap, gap', gap'', mark, back, hafter, hgaps, hmark⟩ :=
      of_typedName? hread
    have htext : c.text = code := hlead.text_eq
    refine ⟨hname, htype, c.before.reverse, gap, gap', gap'', mark, back, ?_, ?_, hgaps, hmark⟩
    · rw [← hafter, ← htext, Cursor.text]
    · rwa [List.getLast?_reverse]
  · rintro ⟨hname, htype, front, gap, gap', gap'', mark, back, rfl, hfront, hgaps, hmark⟩
    obtain ⟨a, name', rfl⟩ : ∃ a name', name = a :: name' :=
      List.exists_cons_of_ne_nil fun hnil => by simpa [hnil] using hname.start
    exact ⟨_, mem_places front a _,
      typedName?_of_after rfl (by rwa [List.head?_reverse]) hgaps hname htype hmark⟩

/-- The names that are collected are those that the text declares with a component type. -/
theorem mem_componentNames_iff {s : ExtractionSettings} {n : String} :
    n ∈ componentNames code s ↔ ∃ name type, Declares code name type ∧
      s.isDatasetComponent (String.ofList type) = true ∧ lowered name = n := by
  rw [componentNames, List.mem_map]
  constructor
  · rintro ⟨⟨name, type⟩, hmem, rfl⟩
    obtain ⟨hmem, hcomponent⟩ := List.mem_filter.mp hmem
    exact ⟨name, type, mem_filterMap_typedName?_iff.mp hmem, hcomponent, rfl⟩
  · rintro ⟨name, type, hdeclares, hcomponent, rfl⟩
    exact ⟨(name, type),
      List.mem_filter.mpr ⟨mem_filterMap_typedName?_iff.mpr hdeclares, hcomponent⟩, rfl⟩

end MigrationAudit.Pascal
