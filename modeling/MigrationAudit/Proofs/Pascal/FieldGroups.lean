import MigrationAudit.Proofs.Pascal.ClassBody
import MigrationAudit.Proofs.Pascal.TypedNames
import MigrationAudit.Proofs.Text.Fields

/-!
# Groups of fields

The dataset components of a class are declared by the statements of its body. Each comes from a
group of names with a type behind a colon, and the pattern by which component names are collected
finds the last name of a group whose type it can read.
-/

namespace MigrationAudit.Text

variable {cs run word : List Char} {runs : List (List Char)} {sep : Char} {p : Char → Bool}

/-! ## Last pieces and single runs -/

/-- The text behind the last `sep`, or all of it. -/
def lastPiece (sep : Char) (cs : List Char) : List Char := (cs.reverse.takeWhile (· != sep)).reverse

theorem exists_append_lastPiece (sep : Char) (cs : List Char) :
    ∃ front, cs = front ++ lastPiece sep cs ∧ front.getLast?.all (· == sep) = true := by
  refine ⟨(cs.reverse.dropWhile (· != sep)).reverse, ?_, ?_⟩
  · rw [lastPiece, ← List.reverse_append, List.takeWhile_append_dropWhile, List.reverse_reverse]
  · rw [List.getLast?_reverse]
    have hhead := head?_any_dropWhile (· != sep) cs.reverse
    cases hcases : (cs.reverse.dropWhile (· != sep)).head? with
    | none => rfl
    | some a => simpa [hcases] using hhead

theorem append_of_splitFirst? {front back : List Char} (h : splitFirst? sep cs = some (front, back)) :
    cs = front ++ sep :: back := by
  have hhead := head?_any_dropWhile (· != sep) cs
  simp only [splitFirst?] at h
  split at h
  · simp at h
  · next a rest hdrop =>
    obtain ⟨rfl, rfl⟩ := Prod.mk.inj (Option.some.inj h)
    obtain rfl : a = sep := by simpa [hdrop] using hhead
    rw [← hdrop, List.takeWhile_append_dropWhile]

/-- A text that is a single word when its white space is collapsed is that word with white space
around it. -/
theorem exists_of_squash (hne : word ≠ []) (hword : ∀ a ∈ word, isBlank a = false)
    (h : squash cs = word) :
    ∃ gap gap', cs = gap ++ (word ++ gap') ∧ ∀ a ∈ gap ++ gap', isBlank a = true := by
  rw [squash] at h
  cases hfields : fields cs with
  | nil => simp [hfields, ← h] at hne
  | cons run runs =>
    rw [hfields] at h
    cases runs with
    | cons next runs =>
      rw [intercalate_cons_cons] at h
      have hspace := hword ' ' (by rw [← h]; simp)
      exact absurd hspace (by decide)
    | nil =>
      obtain rfl : run = word := by simpa [List.intercalate] using h
      obtain ⟨gap, gap', rfl, hgap, hrest⟩ := exists_of_runsOf_cons hfields
      refine ⟨gap, gap', rfl, List.forall_mem_append.mpr ⟨fun a ha => ?_, fun a ha => ?_⟩⟩
      · simpa using hgap a ha
      · simpa using forall_of_runsOf_eq_nil hrest a ha

theorem exists_of_squashed? {t : String} (ht : ∀ a ∈ t.toList, isBlank a = false)
    (h : squashed? cs = some t) :
    ∃ gap gap', cs = gap ++ (t.toList ++ gap') ∧ ∀ a ∈ gap ++ gap', isBlank a = true := by
  rw [squashed?] at h
  split at h
  · simp at h
  · next hne =>
    obtain rfl := Option.some.inj h
    rw [String.toList_ofList] at ht ⊢
    exact exists_of_squash hne ht rfl

end MigrationAudit.Text

namespace MigrationAudit.Pascal

open Text Source

/-! ## Where a name may start -/

/-- A character that the name of a component may start with. -/
def isPatternStart (a : Char) : Bool := a.isAlpha || a == '_'

theorem isPatternStart_ascii {a : Char} (h : isPatternStart a = true) :
    isNameChar a = true ∧ isIdent a = true := by
  have hascii : a.toNat < 128 := by
    simp only [isPatternStart, Bool.or_eq_true, beq_iff_eq] at h
    rcases h with h | rfl
    · have hbounds : (decide ('A'.val ≤ a.val ∧ a.val ≤ 'Z'.val) ||
          decide ('a'.val ≤ a.val) && decide (a.val ≤ 'z'.val)) = true := h
      simp only [Bool.or_eq_true, Bool.and_eq_true, decide_eq_true_eq,
        UInt32.le_iff_toNat_le] at hbounds
      have hval : a.toNat = a.val.toNat := rfl
      simp at hbounds
      omega
    · decide
  have hall : ∀ n < 128, isPatternStart (Char.ofNat n) = true → isIdent (Char.ofNat n) = true := by
    decide +kernel
  have hident : isIdent a = true := by
    have := hall a.toNat hascii
    rw [Char.ofNat_toNat] at this
    exact this h
  exact ⟨(isNameChar_of_ascii hascii).1.trans hident, hident⟩

/-- A name that starts between two parts of a text is not the end of a longer one. -/
def IsNameEdge (front back : List Char) : Prop :=
  back.head?.any isPatternStart = true → front.getLast?.any isNameChar = false

namespace IsNameEdge

variable {front lead back : List Char}

theorem append (h : IsNameEdge front (lead ++ back)) (k : IsNameEdge lead back) :
    IsNameEdge (front ++ lead) back := by
  intro hback
  cases lead with
  | nil => simpa using h hback
  | cons a lead =>
    rw [List.getLast?_append_of_ne_nil _ (List.cons_ne_nil a lead)]
    exact k hback

theorem append_right (h : IsNameEdge front back) (hne : back ≠ []) (more : List Char) :
    IsNameEdge front (back ++ more) := by
  intro hmore
  rw [List.head?_append_of_ne_nil _ hne] at hmore
  exact h hmore

theorem of_getLast? (h : front.getLast?.any isNameChar = false) : IsNameEdge front back :=
  fun _ => h

theorem of_not_isNameChar (h : back.head?.any isNameChar = false) : IsNameEdge front back := by
  intro hback
  cases back with
  | nil => simp at hback
  | cons a back =>
    have hname := (isPatternStart_ascii (by simpa using hback)).1
    simp [hname] at h

theorem of_not_isIdent (h : back.head?.any isIdent = false) : IsNameEdge front back := by
  intro hback
  cases back with
  | nil => simp at hback
  | cons a back =>
    have hident := (isPatternStart_ascii (by simpa using hback)).2
    simp [hident] at h

end IsNameEdge

theorem getLast?_of_isBlank {cs : List Char} (h : ∀ a ∈ cs, isBlank a = true) :
    cs.getLast?.any isNameChar = false := by
  cases hlast : cs.getLast? with
  | none => rfl
  | some a => simpa using isNameChar_of_isBlank (h a (List.mem_of_getLast? hlast))

theorem isNameEdge_skipBlank {c : Cursor} (h : IsNameEdge c.before.reverse c.after) :
    IsNameEdge c.skipBlank.before.reverse c.skipBlank.after := by
  have hbefore : c.skipBlank.before.reverse = c.before.reverse ++ c.after.takeWhile isBlank := by
    simp [Cursor.skipBlank, Cursor.skipWhile, Cursor.advance, List.reverseAux_eq]
  have hafter : c.skipBlank.after = c.after.dropWhile isBlank := rfl
  rw [hbefore, hafter]
  refine IsNameEdge.append (by rwa [List.takeWhile_append_dropWhile]) (.of_getLast? ?_)
  exact getLast?_of_isBlank fun a ha => List.mem_takeWhile_imp ha

theorem isNameEdge_memberContext (m : MemberContext) {c : Cursor}
    (h : IsNameEdge c.before.reverse c.after) :
    IsNameEdge (m.read c).2.before.reverse (m.read c).2.after := by
  fun_induction MemberContext.read m c with
  | case1 => exact h
  | case2 m c w hw m' hm ih =>
    refine ih (isNameEdge_skipBlank (.of_not_isIdent ?_))
    simp only [Cursor.adjacentWord?] at hw
    split at hw
    · simp at hw
    · obtain rfl := Option.some.inj hw
      exact head?_any_dropWhile isIdent _
  | case3 => exact h

/-! ## Statements in a text -/

/-- A statement stands behind a semicolon or at the start of the text. -/
theorem exists_of_mem_statementsFrom {start depth : Nat} {piece cs : List Char} :
    ∀ p ∈ statementsFrom start (start + width piece) depth piece cs,
      ∃ front back, piece.reverse ++ cs = front ++ (p.2 ++ back) ∧ p.1 = start + width front ∧
        front.getLast?.all (· == ';') = true := by
  induction cs generalizing start depth piece with
  | nil =>
    intro p hp
    obtain rfl : p = (start, piece.reverse) := by simpa [statementsFrom] using hp
    exact ⟨[], [], by simp, by simp [width], rfl⟩
  | cons c cs ih =>
    have hwidth : start + width piece + c.utf8Size = start + width (c :: piece) := by
      rw [width]
      omega
    intro p hp
    simp only [statementsFrom, hwidth] at hp
    split at hp
    · next hc =>
      rcases List.mem_cons.mp hp with rfl | hp
      · exact ⟨[], c :: cs, by simp, by simp [width], rfl⟩
      · obtain ⟨front, back, hcs, hstart, hfront⟩ :=
          @ih (start + width (c :: piece)) 0 [] p hp
        refine ⟨piece.reverse ++ c :: front, back, ?_, ?_, ?_⟩
        · have hcs : cs = front ++ (p.2 ++ back) := by simpa using hcs
          rw [hcs]
          simp
        · rw [hstart, width_append, width_reverse]
          simp only [width]
          omega
        · have hsemicolon : c = ';' := by simpa using (Bool.and_eq_true_iff.mp hc).1
          cases front with
          | nil => simpa using hsemicolon
          | cons a front =>
            rwa [List.getLast?_append_of_ne_nil _ (List.cons_ne_nil c _), List.getLast?_cons_cons]
    · obtain ⟨front, back, hcs, hrest⟩ := ih p hp
      exact ⟨front, back, by rw [← hcs]; simp, hrest⟩

/-- A statement of a body stands in it, and a name may start there if one may start at the body. -/
theorem exists_of_mem_statements {n : Nat} {cs : List Char} {p : Nat × List Char}
    (h : p ∈ statements n cs) :
    ∃ front back, cs = front ++ (p.2 ++ back) ∧ p.1 = n + width front ∧
      IsNameEdge front (p.2 ++ back) := by
  obtain ⟨hmem, -⟩ := List.mem_filter.mp h
  obtain ⟨⟨start, piece⟩, hpiece, rfl⟩ := List.mem_map.mp hmem
  obtain ⟨front, back, hcs, hstart, hfront⟩ :=
    @exists_of_mem_statementsFrom n 0 [] cs _ hpiece
  simp only [List.reverse_nil, List.nil_append] at hcs hstart hfront ⊢
  have hedge : front.getLast?.any isNameChar = false := by
    cases hlast : front.getLast? with
    | none => rfl
    | some a =>
      obtain rfl : a = ';' := by simpa [hlast] using hfront
      simpa using isNameChar_semicolon
  rcases exists_trimmed piece with hblank | ⟨lead, text, trail, rfl, hlead, htrail, htext, htext'⟩
  · have htrim := trim_eq_nil hblank
    have hrun : piece.takeWhile isBlank = piece := List.takeWhile_eq_self_iff.mpr hblank
    rw [htrim, hrun]
    refine ⟨front ++ piece, back, by rw [hcs]; simp, by rw [hstart, width_append]; omega, ?_⟩
    exact .append (.of_getLast? hedge) (.of_getLast? (getLast?_of_isBlank hblank))
  · obtain ⟨htrim, hrun⟩ := trim_append hlead htrail htext htext'
    rw [htrim, hrun]
    refine ⟨front ++ lead, trail ++ back, by rw [hcs]; simp, by rw [hstart, width_append]; omega, ?_⟩
    exact .append (.of_getLast? hedge) (.of_getLast? (getLast?_of_isBlank hlead))

end MigrationAudit.Pascal
