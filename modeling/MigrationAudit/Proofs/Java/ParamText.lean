import MigrationAudit.Proofs.Java.TypeText

/-!
# Modifiers and parameters read back

The modifiers in front of a declaration are read word by word, up to the first word that is none.
The parameters of a method come apart at the commas outside brackets.
-/

namespace MigrationAudit.Java

open Text
open scoped Listed

variable {rest : List Char} {c : Char}

/-! ## Modifiers -/

/-- No annotation or modifier starts here, and no white space. -/
structure StartsDeclaration (cs : List Char) : Prop where
  visible : cs.head?.any isBlank = false
  not_annotation : cs.head? ≠ some '@'
  not_modifier : String.ofList (cs.takeWhile isIdent) ∉ modifierWords

theorem isWord_of_mem_modifierWords :
    ∀ w ∈ modifierWords, w.toList ≠ [] ∧ (∀ c ∈ w.toList, isIdent c = true) ∧
      w.toList.head? ≠ some '@' ∧ w.toList.head?.any isBlank = false := by decide

theorem wordsText_cons (w : String) (ws : List String) :
    wordsText (w :: ws) = w.toList ++ ' ' :: wordsText ws := by
  rw [wordsText, List.flatMap_cons, List.append_assoc]
  rfl

/-- Modifiers are read up to the first word that is none. -/
theorem readPrefixWith_wordsText {closing : Cursor → Option Cursor} {fuel : Nat}
    {ws : List String} {d : Cursor} {gap : List Char} (hws : ∀ w ∈ ws, w ∈ modifierWords)
    (hafter : d.after = gap ++ (wordsText ws ++ rest)) (hgap : ∀ a ∈ gap, isBlank a = true)
    (hrest : StartsDeclaration rest) (hfuel : ws.length ≤ fuel) :
    readPrefixWith closing fuel d = (⟨[], ws⟩, d.advance (gap ++ wordsText ws) rest) := by
  -- On the modifiers: the space behind each is the white space in front of the next.
  induction ws generalizing fuel d gap with
  | nil =>
    have hskip : d.skipBlank = d.advance gap rest :=
      Cursor.skipWhile_of_after hafter hgap hrest.visible
    have hwords : wordsText [] = [] := rfl
    rw [hwords, List.append_nil]
    cases fuel with
    | zero => rw [readPrefixWith, hskip]
    | succ fuel =>
      rw [readPrefixWith]
      simp only [hskip, Cursor.after_advance]
      split
      · exact absurd rfl hrest.not_annotation
      · rw [if_neg (by simpa using hrest.not_modifier)]
  | cons w ws ih =>
    obtain ⟨hw, hws⟩ := List.forall_mem_cons.mp hws
    obtain ⟨hne, hident, hat, hvisible⟩ := isWord_of_mem_modifierWords w hw
    obtain ⟨fuel, rfl⟩ := Nat.exists_eq_add_of_le' (Nat.lt_of_lt_of_le ws.length.succ_pos hfuel)
    have hsplit : wordsText (w :: ws) ++ rest = w.toList ++ ([' '] ++ (wordsText ws ++ rest)) := by
      simp [wordsText_cons]
    rw [hsplit] at hafter
    have hhead : (w.toList ++ ([' '] ++ (wordsText ws ++ rest))).head? = w.toList.head? :=
      List.head?_append_of_ne_nil _ hne
    have hskip : d.skipBlank = d.advance gap (w.toList ++ ([' '] ++ (wordsText ws ++ rest))) :=
      Cursor.skipWhile_of_after hafter hgap (by rwa [hhead])
    have hspace : ([' '] ++ (wordsText ws ++ rest)).head?.any isIdent = false := by
      rw [List.singleton_append, List.head?_cons]
      decide
    have hbehind : (d.advance gap (w.toList ++ ([' '] ++ (wordsText ws ++ rest)))).skipWhile isIdent
        = d.advance (gap ++ w.toList) ([' '] ++ (wordsText ws ++ rest)) := by
      rw [Cursor.skipWhile_of_after rfl hident hspace, Cursor.advance_advance]
    have hread : readPrefixWith closing fuel
        (d.advance (gap ++ w.toList) ([' '] ++ (wordsText ws ++ rest))) =
          (⟨[], ws⟩, _) := ih hws rfl (by decide) (by simpa using hfuel)
    rw [readPrefixWith]
    simp only [hskip, hbehind, Cursor.after_advance, takeWhile_append_of_head? hident hspace,
      hread, String.ofList_toList]
    split
    · next heq =>
      rw [← hhead, heq] at hat
      exact absurd rfl hat
    · rw [if_pos (by simpa using hw), Cursor.advance_advance]
      simp [Prefix.modify, wordsText_cons]

theorem length_le_wordsText (ws : List String) : ws.length ≤ (wordsText ws).length := by
  induction ws with
  | nil => exact Nat.le_refl 0
  | cons w ws ih =>
    rw [wordsText_cons, List.length_append, List.length_cons, List.length_cons]
    omega

theorem readPrefix_wordsText {ws : List String} {d : Cursor} {gap : List Char}
    (hws : ∀ w ∈ ws, w ∈ modifierWords) (hafter : d.after = gap ++ (wordsText ws ++ rest))
    (hgap : ∀ a ∈ gap, isBlank a = true) (hrest : StartsDeclaration rest) :
    readPrefix d = (⟨[], ws⟩, d.advance (gap ++ wordsText ws) rest) := by
  refine readPrefixWith_wordsText hws hafter hgap hrest ?_
  have hlength := length_le_wordsText ws
  rw [hafter, List.length_append, List.length_append]
  omega

theorem not_mem_wordsText {ws : List String} (h : ∀ w ∈ ws, w ∈ modifierWords)
    (hc : c ∈ typeStops) : c ∉ wordsText ws := by
  have hwords : ∀ w ∈ modifierWords, ∀ c ∈ typeStops, c ∉ w.toList ++ [' '] := by decide
  rw [wordsText, List.mem_flatMap]
  rintro ⟨w, hw, hmem⟩
  exact hwords w (h w hw) c hc hmem

namespace ModifierText

theorem mem_modifierWords (m : ModifierText) : ∀ w ∈ m.words, w ∈ modifierWords := by
  obtain ⟨access, isStatic, isFinal⟩ := m
  rcases access with _ | _ | _ | _ <;> cases isStatic <;> cases isFinal <;> decide

theorem prefix_words (m : ModifierText) :
    (Prefix.mk [] m.words).visibility .packageAccess = m.visibility ∧
      (Prefix.mk [] m.words).has "static" = m.isStatic ∧
      (Prefix.mk [] m.words).directives = m.directives := by
  obtain ⟨access, isStatic, isFinal⟩ := m
  rcases access with _ | _ | _ | _ <;> cases isStatic <;> cases isFinal <;> decide

end ModifierText

/-! ## Declarations -/

theorem TypeText.takeWhile_isIdent (t : TypeText) (hrest : rest.head?.any isIdent = false) :
    (t.text ++ rest).takeWhile isIdent = t.name.toList.takeWhile isIdent := by
  rw [text, List.append_assoc, takeWhile_append_left]
  cases t.args with
  | some args =>
    rw [argsText, List.cons_append, List.cons_append, List.head?_cons]
    decide
  | none =>
    cases t.dims with
    | zero => exact hrest
    | succ dims =>
      rw [argsText, List.nil_append, dimsText_succ, List.append_assoc, List.cons_append,
        List.head?_cons]
      decide

theorem NamedText.takeWhile_isIdent (n : NamedText) (rest : List Char) :
    (n.text ++ rest).takeWhile isIdent = n.type.name.toList.takeWhile isIdent := by
  have hspace : (' ' :: (n.name.toList ++ rest)).head?.any isIdent = false := by
    rw [List.head?_cons]
    decide
  rw [text, List.append_assoc, List.cons_append, n.type.takeWhile_isIdent hspace]

namespace NamedText.IsPlain

variable {n : NamedText} (h : n.IsPlain)

include h

theorem startsDeclaration (rest : List Char) : StartsDeclaration (n.text ++ rest) where
  visible := by
    rw [text, List.append_assoc, h.type.head?_any]
    exact h.type.name.ends.1
  not_annotation := by
    have hhead : n.text ++ rest = n.type.name.toList ++ ((argsText n.type.args ++
        dimsText n.type.dims) ++ (' ' :: (n.name.toList ++ rest))) := by
      simp [text, TypeText.text]
    rw [hhead, List.head?_append_of_ne_nil _ h.type.name.ne_nil]
    exact fun heq => h.type.name.not_mem (by decide) (List.mem_of_mem_head? heq)
  not_modifier := by
    rw [n.takeWhile_isIdent]
    exact fun hmem => h.type.name.not_mem_reserved
      (List.mem_append_left _ (List.mem_append_left _ hmem))

end NamedText.IsPlain

/-! ## Parameters -/

namespace ParamText

variable {p : ParamText} (h : p.named.IsPlain)

theorem mem_modifierWords (p : ParamText) : ∀ w ∈ p.words, w ∈ modifierWords := by
  rw [words]
  split <;> decide

theorem has_final (p : ParamText) : (Prefix.mk [] p.words).has "final" = p.isFinal := by
  rw [words]
  cases p.isFinal <;> decide

include h

theorem readParam?_text : readParam? p.text = some p.param := by
  have hstarts : StartsDeclaration p.named.text := by
    rw [← List.append_nil p.named.text]
    exact h.startsDeclaration []
  have hafter : (Cursor.ofText p.text).after = [] ++ (wordsText p.words ++ p.named.text) := rfl
  have hread := readPrefix_wordsText p.mem_modifierWords hafter (List.forall_mem_nil _) hstarts
  rw [readParam?, hread]
  simp only [Cursor.after_advance, h.trailingName?, h.type.squashed?, has_final, Option.map_some,
    String.ofList_toList]
  rfl

theorem isPiece : IsPiece ',' p.text := by
  refine .append ?_ h.isPiece
  rw [words]
  split
  · exact .of_isBracketFree (by decide) (by decide)
  · exact .nil

theorem ends : p.text.head?.any isBlank = false ∧ p.text.getLast?.any isBlank = false := by
  have hne : p.named.text ≠ [] := List.append_ne_nil_of_right_ne_nil _ (List.cons_ne_nil _ _)
  rw [text, List.getLast?_append_of_ne_nil _ hne]
  refine ⟨?_, h.ends.2⟩
  rw [words]
  split
  · rfl
  · exact h.ends.1

theorem not_mem (hc : c ∈ typeStops) : c ∉ p.text := by
  rw [text, List.mem_append, not_or]
  exact ⟨not_mem_wordsText p.mem_modifierWords hc, h.not_mem hc⟩

end ParamText

variable {ps : List ParamText} (h : ∀ p ∈ ps, p.named.IsPlain)

include h

theorem parseParams_paramsText : parseParams (paramsText ps) = ps.map ParamText.param := by
  cases ps with
  | nil =>
    simp [paramsText, parseParams, splitTopLevel, topLevelPieces, trim, trimWhere, dropEndWhile]
  | cons p ps =>
    have hplain : ∀ q ∈ p.text :: ps.map ParamText.text,
        ∃ p : ParamText, p.named.IsPlain ∧ p.text = q := by
      rw [← List.map_cons]
      intro q hq
      obtain ⟨p, hp, rfl⟩ := List.mem_map.mp hq
      exact ⟨p, h p hp, rfl⟩
    rw [paramsText, parseParams, splitTopLevel_separated (by decide) (by decide) (by decide)]
    · rw [← List.map_cons, List.filterMap_map, ← List.filterMap_eq_map]
      exact List.filterMap_congr fun p hp => ParamText.readParam?_text (h p hp)
    all_goals
      intro q hq
      obtain ⟨p, hp, rfl⟩ := hplain q hq
    · exact ParamText.isPiece hp
    · exact List.append_ne_nil_of_right_ne_nil _
        (List.append_ne_nil_of_right_ne_nil _ (List.cons_ne_nil _ _))
    · exact (ParamText.ends hp).1
    · exact (ParamText.ends hp).2

theorem not_mem_paramsText (hc : c ∈ typeStops) : c ∉ paramsText ps := by
  have hseparator : ',' ∉ typeStops ∧ ' ' ∉ typeStops := by decide
  cases ps with
  | nil => exact List.not_mem_nil
  | cons p ps =>
    obtain ⟨hp, hps⟩ := List.forall_mem_cons.mp h
    rw [paramsText, List.mem_append, not_or]
    refine ⟨ParamText.not_mem hp hc, fun hmem => ?_⟩
    obtain ⟨q, hq, hmem⟩ := List.mem_flatMap.mp hmem
    obtain ⟨p, hp, rfl⟩ := List.mem_map.mp hq
    rcases List.mem_cons.mp hmem with rfl | hmem
    · exact hseparator.1 hc
    rcases List.mem_cons.mp hmem with rfl | hmem
    · exact hseparator.2 hc
    · exact ParamText.not_mem (hps p hp) hc hmem

end MigrationAudit.Java
