import MigrationAudit.Proofs.Java.ClassText

/-!
# Types and names written out

The name of a member stands at the end of what is in front of its first mark, and its type in front
of that. The marks and commas in the angle brackets of a type are not looked at.
-/

namespace MigrationAudit.Java

open Text
open scoped Listed

variable {a b cs rest : List Char} {c : Char}

/-! ## Names -/

/-- Marks that are in no name. -/
def nameStops : List Char := [' ', ',', '<', '>', '[', ']', ';', '@', '*'] ++ typeStops

theorem isNamePart_of_mem_nameStops : ∀ c ∈ nameStops, isNamePart c = false := by decide

theorem not_mem_of_isNamePart (h : ∀ c ∈ cs, isNamePart c = true) (hc : c ∈ nameStops) : c ∉ cs :=
  fun hmem => by simpa [isNamePart_of_mem_nameStops c hc] using h c hmem

theorem isBlank_of_isNamePart (h : isNamePart c = true) : isBlank c = false := by
  by_contra hblank
  rw [Bool.not_eq_false] at hblank
  have hident := isIdent_of_isBlank c hblank
  rw [isNamePart, hident, Bool.false_or, beq_iff_eq] at h
  subst h
  revert hblank
  decide

theorem isBracketFree_of_isNamePart (h : ∀ c ∈ cs, isNamePart c = true) : IsBracketFree cs := by
  have hstops : ∀ a ∈ brackets, a ∈ nameStops := by decide
  exact fun c hc => bracketFree_of_notMem fun hmem => not_mem_of_isNamePart h (hstops c hmem) hc

namespace IsName

variable {n : String} (h : IsName n)

include h

theorem not_mem (hc : c ∈ nameStops) : c ∉ n.toList := not_mem_of_isNamePart h.chars hc

theorem isBlank {a : Char} (ha : a ∈ n.toList) : isBlank a = false :=
  isBlank_of_isNamePart (h.chars a ha)

theorem isPiece : IsPiece ',' n.toList :=
  .of_isBracketFree (isBracketFree_of_isNamePart h.chars) (h.not_mem (by decide))

theorem ends : n.toList.head?.any MigrationAudit.Text.isBlank = false ∧
    n.toList.getLast?.any MigrationAudit.Text.isBlank = false := by
  rw [List.head?_eq_some_head h.ne_nil, List.getLast?_eq_some_getLast h.ne_nil]
  exact ⟨h.isBlank (List.head_mem h.ne_nil), h.isBlank (List.getLast_mem h.ne_nil)⟩

/-- The characters up to the first dollar sign are a word, or there are none. -/
theorem not_mem_reserved : String.ofList (n.toList.takeWhile isIdent) ∉ reserved := by
  cases hword : n.toList.takeWhile isIdent with
  | nil => decide
  | cons a word =>
    have hsplit := List.takeWhile_append_dropWhile (p := isIdent) (l := n.toList)
    have hident : ∀ c ∈ a :: word, isIdent c = true := fun c hc =>
      List.mem_takeWhile_imp (hword ▸ hc)
    have hafter : (Cursor.ofText n.toList).after =
        [] ++ ((a :: word) ++ n.toList.dropWhile isIdent) := by
      rw [List.nil_append, ← hword, hsplit]
      rfl
    have hnext := Cursor.nextWord?_of_after hafter (List.forall_mem_nil _)
      (List.cons_ne_nil a word) hident (head?_any_dropWhile isIdent _)
    have hmem := Cursor.words_of_nextWord? hnext
    exact h.free _ (by rw [Text.words, hmem]; exact List.mem_cons_self)

end IsName

/-! ## Types -/

/-- The text up to the first mark of a member goes on behind a text that has none. -/
def PassesMark (cs : List Char) : Prop :=
  ∀ rest, splitMember 0 (cs ++ rest) = (cs ++ (splitMember 0 rest).1, (splitMember 0 rest).2)

theorem splitMember_of_closesAll {depth : Nat} (h : closesAll (· == '<') (· == '>') depth cs)
    {around : Nat} (haround : 0 < around) (rest : List Char) :
    splitMember (depth + around) (cs ++ rest) =
      (cs ++ (splitMember around rest).1, (splitMember around rest).2) := by
  induction cs generalizing depth with
  | nil =>
    obtain rfl : depth = 0 := by simpa [closesAll] using h
    rw [Nat.zero_add, List.nil_append, List.nil_append]
  | cons c cs ih =>
    have hdepth : (depth + around == 0) = false := beq_false_of_ne (by omega)
    rw [List.cons_append, splitMember, hdepth, Bool.false_and, if_neg Bool.false_ne_true]
    simp only
    split
    · next hc => rw [Nat.add_right_comm, ih (closesAll_of_opens h hc), List.cons_append]
    · next hc =>
      rw [Bool.not_eq_true] at hc
      split
      · next hcloses =>
        obtain ⟨hpos, hcs⟩ := closesAll_of_closes h hc hcloses
        rw [Nat.sub_add_comm hpos, ih hcs, List.cons_append]
      · next hcloses =>
        rw [ih (closesAll_of_other h hc (Bool.eq_false_iff.mpr hcloses)), List.cons_append]

namespace PassesMark

theorem append (ha : PassesMark a) (hb : PassesMark b) : PassesMark (a ++ b) := by
  intro rest
  rw [List.append_assoc, ha, hb, List.append_assoc]

theorem of_forall (h : ∀ c ∈ cs, c ∉ ['(', '=', ';', '\x7b', '<', '>']) : PassesMark cs := by
  induction cs with
  | nil => exact fun _ => rfl
  | cons c cs ih =>
    obtain ⟨hc, hcs⟩ := List.forall_mem_cons.mp h
    intro rest
    simp only [List.mem_cons, List.not_mem_nil, or_false, not_or] at hc
    rw [List.cons_append, splitMember]
    simp [hc, ih hcs rest]

theorem enclose (h : IsPaired (· == '<') (· == '>') cs) : PassesMark ('<' :: (cs ++ ['>'])) := by
  intro rest
  have hinside := splitMember_of_closesAll h Nat.one_pos ('>' :: rest)
  rw [Nat.zero_add] at hinside
  have hclose : splitMember 1 ('>' :: rest) =
      ('>' :: (splitMember 0 rest).1, (splitMember 0 rest).2) := by
    rw [splitMember]
    rfl
  have hopen : splitMember 0 ('<' :: (cs ++ ('>' :: rest))) =
      ('<' :: (splitMember 1 (cs ++ ('>' :: rest))).1,
        (splitMember 1 (cs ++ ('>' :: rest))).2) := by
    rw [splitMember]
    rfl
  rw [List.cons_append, List.append_assoc, List.singleton_append, hopen, hinside, hclose]
  simp

theorem of_isNamePart (h : ∀ c ∈ cs, isNamePart c = true) : PassesMark cs :=
  have hstops : ['(', '=', ';', '\x7b', '<', '>'] ⊆ nameStops := by decide
  of_forall fun _ hc hmark => not_mem_of_isNamePart h (hstops hmark) hc

end PassesMark

theorem dimsText_succ (dims : Nat) : dimsText (dims + 1) = ['[', ']'] ++ dimsText dims := by
  rw [dimsText, List.replicate_succ, List.flatten_cons]
  rfl

theorem mem_dimsText {dims : Nat} (h : c ∈ dimsText dims) : c = '[' ∨ c = ']' := by
  obtain ⟨l, hl, hc⟩ := List.mem_flatten.mp h
  rw [List.eq_of_mem_replicate hl] at hc
  simpa using hc

theorem isPiece_dimsText (dims : Nat) : IsPiece ',' (dimsText dims) := by
  induction dims with
  | zero => exact .nil
  | succ dims ih =>
    have hpair : IsPiece ',' ['[', ']'] := @IsPiece.enclose ',' [] '[' ']' rfl rfl rfl rfl
    rw [dimsText_succ]
    exact hpair.append ih

namespace TypeText.IsPlain

variable {t : TypeText} (h : t.IsPlain)

include h

theorem not_mem_argsText (hc : c ∈ typeStops) : c ∉ argsText t.args := by
  have hangles : '<' ∉ typeStops ∧ '>' ∉ typeStops := by decide
  cases hargs : t.args with
  | none => exact List.not_mem_nil
  | some args =>
    have hfree := (h.args args hargs).free
    rw [argsText, List.mem_cons, List.mem_append, List.mem_singleton]
    rintro (rfl | hmem | rfl)
    · exact hangles.1 hc
    · exact hfree c hmem hc
    · exact hangles.2 hc

theorem not_mem (hc : c ∈ typeStops) : c ∉ t.text := by
  have hbrackets : '[' ∉ typeStops ∧ ']' ∉ typeStops := by decide
  rw [text, List.mem_append, List.mem_append, not_or, not_or]
  refine ⟨h.name.not_mem (List.mem_append_right _ hc), h.not_mem_argsText hc, fun hmem => ?_⟩
  rcases mem_dimsText hmem with rfl | rfl
  · exact hbrackets.1 hc
  · exact hbrackets.2 hc

theorem isPiece : IsPiece ',' t.text := by
  refine h.name.isPiece.append (.append ?_ (isPiece_dimsText t.dims))
  cases hargs : t.args with
  | none => exact .nil
  | some args => exact .enclose rfl rfl rfl (h.args args hargs).brackets

theorem passesMark : PassesMark t.text := by
  refine (PassesMark.of_isNamePart h.name.chars).append (.append ?_ (.of_forall fun c hc => ?_))
  · cases hargs : t.args with
    | none => exact fun _ => rfl
    | some args => exact .enclose (h.args args hargs).angles
  · rcases mem_dimsText hc with rfl | rfl <;> decide

/-- A type with a space behind it is recorded with its own spaces squashed. -/
theorem squashed? : squashed? (t.text ++ [' ']) = some t.label := by
  refine squashed?_of_squash ?_ ?_
  · obtain ⟨c, cs, hname⟩ := List.exists_cons_of_ne_nil h.name.ne_nil
    rw [label, String.toList_ofList, text, hname]
    exact squash_ne_nil (h.name.isBlank (hname ▸ List.mem_cons_self))
  · rw [squash_append_space, label, String.toList_ofList]

theorem head?_any (p : Char → Bool) (rest : List Char) :
    (t.text ++ rest).head?.any p = t.name.toList.head?.any p := by
  rw [text, List.append_assoc, List.head?_append_of_ne_nil _ h.name.ne_nil]

end TypeText.IsPlain

/-! ## Names behind types -/

theorem trailingName?_append {front : List Char} (hfront : front.getLast?.any isNamePart = false)
    (hne : cs ≠ []) (hcs : ∀ c ∈ cs, isNamePart c = true)
    (hstart : cs.head?.any Char.isDigit = false) :
    trailingName? (front ++ cs) = some (front, cs) := by
  have hlast : ∀ p : Char → Bool, (∀ c, isNamePart c = true → p c = false) →
      (cs.reverse ++ front.reverse).dropWhile p = cs.reverse ++ front.reverse := fun p hp => by
    refine dropWhile_eq_self_of_head? ?_
    rw [List.head?_append_of_ne_nil _ (List.reverse_ne_nil_iff.mpr hne), List.head?_reverse,
      List.getLast?_eq_some_getLast hne]
    exact hp _ (hcs _ (List.getLast_mem hne))
  have hbrackets : ∀ c, isNamePart c = true → (c == '[' || c == ']' || c == ' ') = false := by
    intro c hc
    rw [Bool.eq_false_iff]
    simp only [ne_eq, Bool.or_eq_true, beq_iff_eq]
    rintro ((rfl | rfl) | rfl) <;> revert hc <;> decide
  have hrev : ∀ c ∈ cs.reverse, isNamePart c = true := fun c hc => hcs c (List.mem_reverse.mp hc)
  have hhead : front.reverse.head?.any isNamePart = false := by rwa [List.head?_reverse]
  rw [trailingName?, List.reverse_append, hlast isBlank fun _ => isBlank_of_isNamePart,
    hlast _ hbrackets]
  simp only [takeWhile_append_of_head? hrev hhead, dropWhile_append_of_head? hrev hhead,
    List.reverse_reverse, hstart]
  split
  · next hdigit => exact absurd hdigit Bool.false_ne_true
  · rfl

namespace NamedText.IsPlain

variable {n : NamedText} (h : n.IsPlain)

include h

theorem not_mem (hc : c ∈ typeStops) : c ∉ n.text := by
  have hspace : ' ' ∉ typeStops := by decide
  rw [text, List.mem_append, List.mem_cons, not_or, not_or]
  refine ⟨h.type.not_mem hc, fun heq => hspace (heq ▸ hc), ?_⟩
  exact h.name.not_mem (List.mem_append_right _ hc)

theorem isPiece : IsPiece ',' n.text :=
  have hspace : IsPiece ',' [' '] := .of_isBracketFree (by decide) (by decide)
  h.type.isPiece.append (hspace.append h.name.isPiece)

theorem passesMark : PassesMark n.text :=
  have hspace : PassesMark [' '] := .of_forall (by decide)
  h.type.passesMark.append (hspace.append (.of_isNamePart h.name.chars))

theorem trailingName? :
    trailingName? n.text = some (n.type.text ++ [' '], n.name.toList) := by
  have hspace : (n.type.text ++ [' ']).getLast?.any isNamePart = false := by
    rw [List.getLast?_concat]
    decide
  have hsplit : n.text = (n.type.text ++ [' ']) ++ n.name.toList := by
    rw [List.append_assoc]
    rfl
  rw [hsplit, trailingName?_append hspace h.name.ne_nil h.name.chars h.name.start]

theorem ends : n.text.head?.any isBlank = false ∧ n.text.getLast?.any isBlank = false := by
  rw [text, h.type.head?_any, List.append_cons, List.getLast?_append_of_ne_nil _ h.name.ne_nil]
  exact ⟨h.type.name.ends.1, h.name.ends.2⟩

end NamedText.IsPlain

end MigrationAudit.Java
