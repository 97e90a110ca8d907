import MigrationAudit.Java.Prefix
import MigrationAudit.Proofs.Text.Brackets

/-!
# Parentheses of annotations

The parenthesis that closes the arguments of an annotation may be searched for, or looked up in the
pairs of the whole text. A search ends with the text of the cursor and a pair may reach behind that
end, so what is looked up counts only when it lies in front of it. Then both ways agree, and with
either of them a declaration starts with the same annotations and modifiers.
-/

namespace MigrationAudit.Java

open Text

variable {c d : Cursor} {cs : List Char} {f g : Cursor → Option Cursor}

/-! ## One parenthesis -/

theorem searchClosing_eq_reach? (c : Cursor) :
    searchClosing c = (reach? '(' ')' 0 [] c.after).map fun n => c.seek (c.offset + n) := by
  rw [searchClosing, reach?, splitAtClose?, Option.map_map]
  refine Option.map_congr ?_
  rintro ⟨inside, rest⟩ hclose
  have hafter : c.after = inside ++ ')' :: rest := (append_of_closeFrom hclose).symm
  rw [Function.comp_apply, Cursor.seek, Nat.add_sub_cancel_left, hafter, takeBytes_width_append,
    dropBytes_width_append]

theorem after_ne_nil_of_searchClosing (h : searchClosing c = some d) : d.after ≠ [] := by
  obtain ⟨⟨inside, rest⟩, -, rfl⟩ := Option.map_eq_some_iff.mp h
  exact List.cons_ne_nil _ _

/-- Where a parenthesis opens, its pair in the whole text is what a search finds, when it lies in
front of the end of the cursor. -/
theorem lookupClosing_of (hc : c.StandsIn cs) (hopen : c.after.head? = some '(') :
    lookupClosing (.of '(' ')' cs) c = searchClosing c := by
  obtain ⟨beyond, hcs, hwidth⟩ := hc.exists_eq
  obtain ⟨rest, hafter⟩ := List.head?_eq_some_iff.mp hopen
  have hpair : (Pairing.of '(' ')' cs).closingAt? c.offset =
      (reach? '(' ')' 0 [] (c.after ++ beyond)).map (c.offset + ·) := by
    rw [← hwidth, hcs, hafter, List.cons_append, Pairing.closingAt?_of, closingAt?_eq_reach?,
      dropBytes_width_append]
  rw [lookupClosing, hpair, searchClosing_eq_reach?, reach?_eq_filter_append _ _ c.after beyond]
  cases hwhole : reach? '(' ')' 0 [] (c.after ++ beyond) with
  | none => rfl
  | some n =>
    by_cases hn : n < width c.after
    · have hfound : searchClosing c = some (c.seek (c.offset + n)) := by
        rw [searchClosing_eq_reach?, reach?_eq_filter_append _ _ c.after beyond, hwhole,
          Option.filter_some, if_pos (decide_eq_true hn), Option.map_some]
      have hne := after_ne_nil_of_searchClosing hfound
      rw [Option.filter_some, if_pos (decide_eq_true hn), Option.map_some, Option.map_some,
        Option.bind_some, if_neg (by simpa using hne)]
    · -- The pair lies behind the end, where no search gets.
      have hend : (c.seek (c.offset + n)).after = [] := by
        rw [Cursor.seek, Cursor.after_advance, Nat.add_sub_cancel_left,
          dropBytes_eq_nil (Nat.le_of_not_lt hn)]
      rw [Option.filter_some, if_neg (by simpa using hn), Option.map_some, Option.bind_some,
        if_pos (by rw [hend]; rfl), Option.map_none]

/-! ## Annotations and prefixes -/

/-- An annotation is read in the same way when its parenthesis is closed in the same way. -/
theorem readAnnotation?_congr
    (h : ∀ paren, c.Leads paren → paren.after.head? = some '(' → f paren = g paren) :
    readAnnotation? f c = readAnnotation? g c := by
  have hparen : c.Leads (pastDotted c.next.skipBlank).skipBlank :=
    (leads_annotationName c).trans (Cursor.leads_skipWhile ..)
  unfold readAnnotation?
  simp only
  split
  · rfl
  · split
    · next rest hopen => rw [h _ hparen (by rw [hopen]; rfl)]
    · rfl

theorem readPrefixWith_lookupClosing (fuel : Nat) (hc : c.StandsIn cs) :
    readPrefixWith (lookupClosing (.of '(' ')' cs)) fuel c =
      readPrefixWith searchClosing fuel c := by
  induction fuel generalizing c with
  | zero => rfl
  | succ fuel ih =>
    have hblank : c.skipBlank.StandsIn cs := hc.of_leads (Cursor.leads_skipWhile ..)
    have hread : readAnnotation? (lookupClosing (.of '(' ')' cs)) c.skipBlank =
        readAnnotation? searchClosing c.skipBlank :=
      readAnnotation?_congr fun paren hlead hopen => lookupClosing_of (hblank.of_leads hlead) hopen
    unfold readPrefixWith
    simp only [hread]
    split
    · split
      · next a behind hsome =>
        rw [ih (hblank.of_leads (leads_readAnnotation? leads_searchClosing hsome))]
      · rfl
    · rw [ih (hblank.of_leads (Cursor.leads_skipWhile ..))]

/-- One pass over a text pairs every opening delimiter with the one that a search from it finds, in
the whole text and, when the pair lies in it, in a text that is cut off. So the annotations and
modifiers at any place of a text, up to any end, are those that are read with the parentheses of the
whole text paired once. -/
theorem readPrefix_eq_lookup :
    (∀ (opening close : Char) (a b : List Char) (limit : Nat),
      closingAt? opening close (takeBytes limit (a ++ opening :: b)) (width a) =
        ((Pairing.of opening close (a ++ opening :: b)).closingAt? (width a)).filter (· < limit)) ∧
    ∀ (cs : List Char) (start limit : Nat),
      readPrefixWith (lookupClosing (.of '(' ')' cs)) (Cursor.within cs start limit).after.length
          (Cursor.within cs start limit) =
        readPrefix (Cursor.within cs start limit) := by
  constructor
  case left =>
    intro opening close a b limit
    rw [Pairing.closingAt?_of, closingAt?_takeBytes]
  case right =>
    intro cs start limit
    exact readPrefixWith_lookupClosing _ (Cursor.standsIn_within cs start limit)

end MigrationAudit.Java
