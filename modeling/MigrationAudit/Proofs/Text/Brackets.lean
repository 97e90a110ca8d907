import MigrationAudit.Text.Bracket
import MigrationAudit.Proofs.Text.Slices

/-!
# Texts with paired brackets

The brackets of a text are paired when each one that it opens is closed in it, and no other. A scan
that counts brackets leaves such a text at the depth at which it came to it, and when it came to it
inside a bracket it stops nowhere in it. So one pass that keeps the brackets that are open finds for
each of them what a search from there finds.
-/

namespace MigrationAudit.Text

/-- Whether a text closes the `depth` brackets that are open, those that it opens itself, and no
more. -/
def closesAll (opens closes : Char → Bool) (depth : Nat) : List Char → Bool
  | [] => depth == 0
  | c :: cs =>
    if opens c then closesAll opens closes (depth + 1) cs
    else if closes c then decide (0 < depth) && closesAll opens closes (depth - 1) cs
    else closesAll opens closes depth cs

/-- A text closes what it opens, and nothing else. -/
def IsPaired (opens closes : Char → Bool) (cs : List Char) : Prop :=
  closesAll opens closes 0 cs = true

instance (opens closes : Char → Bool) (cs : List Char) : Decidable (IsPaired opens closes cs) :=
  inferInstanceAs (Decidable (_ = true))

section Closing

variable {opens closes : Char → Bool} {depth : Nat} {c : Char} {cs : List Char}

theorem closesAll_of_opens (h : closesAll opens closes depth (c :: cs)) (hc : opens c = true) :
    closesAll opens closes (depth + 1) cs := by
  rwa [closesAll, if_pos hc] at h

theorem closesAll_of_closes (h : closesAll opens closes depth (c :: cs)) (hopens : opens c = false)
    (hc : closes c = true) : 0 < depth ∧ closesAll opens closes (depth - 1) cs := by
  rw [closesAll, hopens, if_neg Bool.false_ne_true, if_pos hc, Bool.and_eq_true_iff] at h
  exact ⟨of_decide_eq_true h.1, h.2⟩

theorem closesAll_of_other (h : closesAll opens closes depth (c :: cs)) (hopens : opens c = false)
    (hc : closes c = false) : closesAll opens closes depth cs := by
  rwa [closesAll, hopens, hc, if_neg Bool.false_ne_true, if_neg Bool.false_ne_true] at h

/-- Behind a text that closes all it must, the brackets that were open below are open. -/
theorem closesAll_append (h : closesAll opens closes depth cs) (below : Nat) (rest : List Char) :
    closesAll opens closes (depth + below) (cs ++ rest) = closesAll opens closes below rest := by
  induction cs generalizing depth with
  | nil =>
    obtain rfl : depth = 0 := by simpa [closesAll] using h
    rw [Nat.zero_add, List.nil_append]
  | cons c cs ih =>
    rw [List.cons_append, closesAll]
    split
    · next hc => rw [Nat.add_right_comm, ih (closesAll_of_opens h hc)]
    · next hc =>
      rw [Bool.not_eq_true] at hc
      split
      · next hcloses =>
        obtain ⟨hpos, hcs⟩ := closesAll_of_closes h hc hcloses
        rw [Nat.sub_add_comm hpos, ih hcs, decide_eq_true (Nat.add_pos_left hpos _), Bool.true_and]
      · next hcloses => rw [ih (closesAll_of_other h hc (Bool.eq_false_iff.mpr hcloses))]

namespace IsPaired

theorem of_forall (h : ∀ c ∈ cs, opens c = false ∧ closes c = false) :
    IsPaired opens closes cs := by
  induction cs with
  | nil => rfl
  | cons c cs ih =>
    obtain ⟨⟨hopens, hcloses⟩, hcs⟩ := List.forall_mem_cons.mp h
    rw [IsPaired, closesAll, hopens, hcloses]
    exact ih hcs

theorem of_not_mem {opening close : Char} (hopening : opening ∉ cs) (hclose : close ∉ cs) :
    IsPaired (· == opening) (· == close) cs :=
  of_forall fun _ hc => ⟨beq_false_of_ne (ne_of_mem_of_not_mem hc hopening),
    beq_false_of_ne (ne_of_mem_of_not_mem hc hclose)⟩

theorem append {rest : List Char} (h : IsPaired opens closes cs)
    (hrest : IsPaired opens closes rest) : IsPaired opens closes (cs ++ rest) := by
  rw [IsPaired, ← Nat.zero_add 0, closesAll_append h]
  exact hrest

theorem enclose {opening close : Char} (hopening : opens opening = true)
    (hclose : opens close = false) (hcloses : closes close = true)
    (h : IsPaired opens closes cs) : IsPaired opens closes (opening :: (cs ++ [close])) := by
  rw [IsPaired, closesAll, if_pos hopening, closesAll_append h, closesAll, hclose,
    if_neg Bool.false_ne_true, if_pos hcloses]
  rfl

theorem flatMap {α : Type} {items : List α} {text : α → List Char}
    (h : ∀ a ∈ items, IsPaired opens closes (text a)) :
    IsPaired opens closes (items.flatMap text) := by
  induction items with
  | nil => rfl
  | cons a items ih =>
    obtain ⟨ha, hitems⟩ := List.forall_mem_cons.mp h
    rw [List.flatMap_cons]
    exact ha.append (ih hitems)

end IsPaired

end Closing

/-! ## The bracket that closes -/

section Delimiters

variable {opening close : Char} {cs rest : List Char}

theorem closeFrom_append {depth : Nat} (h : closesAll (· == opening) (· == close) depth cs)
    {around : Nat} (haround : 0 < around) (seen rest : List Char) :
    closeFrom opening close (depth + around) seen (cs ++ rest) =
      closeFrom opening close around (cs.reverse ++ seen) rest := by
  induction cs generalizing depth seen with
  | nil =>
    obtain rfl : depth = 0 := by simpa [closesAll] using h
    rw [Nat.zero_add, List.nil_append, List.reverse_nil, List.nil_append]
  | cons c cs ih =>
    rw [List.cons_append, closeFrom, List.reverse_cons, List.append_assoc, List.singleton_append]
    split
    · next hc => rw [Nat.add_right_comm, ih (closesAll_of_opens h hc)]
    · next hc =>
      rw [Bool.not_eq_true] at hc
      split
      · next hcloses =>
        obtain ⟨hpos, hcs⟩ := closesAll_of_closes h hc hcloses
        rw [if_neg (by omega), Nat.sub_add_comm hpos, ih hcs]
      · next hcloses => rw [ih (closesAll_of_other h hc (Bool.eq_false_iff.mpr hcloses))]

theorem splitAtClose?_of_isPaired (hne : close ≠ opening)
    (h : IsPaired (· == opening) (· == close) cs) :
    splitAtClose? opening close (opening :: (cs ++ close :: rest)) =
      some (opening :: cs, rest) := by
  have hinside := closeFrom_append h Nat.one_pos [opening] (close :: rest)
  rw [Nat.zero_add] at hinside
  rw [splitAtClose?, closeFrom, if_pos (beq_self_eq_true opening), Nat.zero_add, hinside, closeFrom,
    if_neg (by simpa using hne), if_pos (beq_self_eq_true close), if_pos (Nat.le_refl 1)]
  simp

end Delimiters

/-! ## Pairs found in one pass -/

section Pairs

variable {opening close : Char} {depth n p start : Nat} {a b seen cs : List Char}
  {pending : List Nat} {found : Std.HashMap Nat Nat}

/-- How far a search gets, counted from where it began to see the text. -/
def reach? (opening close : Char) (depth : Nat) (seen cs : List Char) : Option Nat :=
  (closeFrom opening close depth seen cs).map (width ·.1)

theorem reach?_cons (opening close : Char) (depth : Nat) (seen : List Char) (c : Char)
    (cs : List Char) :
    reach? opening close depth seen (c :: cs) =
      if c == opening then reach? opening close (depth + 1) (c :: seen) cs
      else if c == close then
        if depth ≤ 1 then some (width seen) else reach? opening close (depth - 1) (c :: seen) cs
      else reach? opening close depth (c :: seen) cs := by
  simp only [reach?, closeFrom, apply_ite (Option.map _), Option.map_some, width_reverse]

theorem width_le_of_reach? (h : reach? opening close depth seen cs = some p) : width seen ≤ p := by
  induction cs generalizing depth seen with
  | nil => cases h
  | cons c cs ih =>
    have hcons : width seen ≤ width (c :: seen) := Nat.le_add_left ..
    rw [reach?_cons] at h
    split at h
    · exact Nat.le_trans hcons (ih h)
    · split at h
      · split at h
        · exact Nat.le_of_eq (Option.some.inj h)
        · exact Nat.le_trans hcons (ih h)
      · exact Nat.le_trans hcons (ih h)

/-- In a text that is cut off, a search finds what it finds in the whole, unless that is cut off. -/
theorem reach?_takeBytes_eq_some_iff :
    reach? opening close depth seen (takeBytes n cs) = some p ↔
      reach? opening close depth seen cs = some p ∧ p < width seen + n := by
  induction cs generalizing depth seen n with
  | nil => simp [reach?, closeFrom]
  | cons c cs ih =>
    rcases Nat.eq_zero_or_pos n with rfl | hn
    · rw [takeBytes_zero]
      refine iff_of_false (Option.some_ne_none p).symm ?_
      rintro ⟨h, hp⟩
      exact absurd (width_le_of_reach? h) (Nat.not_le.mpr hp)
    · -- one character less may be taken, and one more is seen
      have hcons {d : Nat} : reach? opening close d (c :: seen) cs = some p ∧
            p < width (c :: seen) + (n - c.utf8Size) ↔
          reach? opening close d (c :: seen) cs = some p ∧ p < width seen + n := by
        refine and_congr_right fun h => ?_
        have hle := width_le_of_reach? h
        rw [width] at hle ⊢
        omega
      rw [takeBytes_cons hn, reach?_cons, reach?_cons]
      split
      · rw [ih, hcons]
      · split
        · split
          · rw [Option.some_inj]
            omega
          · rw [ih, hcons]
        · rw [ih, hcons]

/-- At the front of a text a search finds what it finds in the whole, unless that lies behind it. -/
theorem reach?_eq_filter_append (opening close : Char) (a b : List Char) :
    reach? opening close 0 [] a = (reach? opening close 0 [] (a ++ b)).filter (· < width a) := by
  refine Option.ext fun p => ?_
  have hiff : reach? opening close 0 [] (takeBytes (width a) (a ++ b)) = some p ↔
      reach? opening close 0 [] (a ++ b) = some p ∧ p < width [] + width a :=
    reach?_takeBytes_eq_some_iff
  rw [takeBytes_width_append, width, Nat.zero_add] at hiff
  rw [hiff, Option.filter_eq_some_iff, decide_eq_true_eq]

theorem closingAt?_eq_reach? (opening close : Char) (cs : List Char) (n : Nat) :
    closingAt? opening close cs n =
      (reach? opening close 0 [] (dropBytes n cs)).map (n + ·) := by
  rw [closingAt?, reach?, splitAtClose?, Option.map_map]
  rfl

/-- The delimiter that closes another one in a text that is cut off is the one that closes it in the
whole, unless that is cut off. -/
theorem closingAt?_takeBytes (opening close : Char) (a b : List Char) (n : Nat) :
    closingAt? opening close (takeBytes n (a ++ b)) (width a) =
      (closingAt? opening close (a ++ b) (width a)).filter (· < n) := by
  rw [closingAt?_eq_reach?, closingAt?_eq_reach?, dropBytes_width_takeBytes, dropBytes_width_append]
  refine Option.ext fun p => ?_
  simp only [Option.map_eq_some_iff, reach?_takeBytes_eq_some_iff, Option.filter_eq_some_iff,
    decide_eq_true_eq, width, Nat.zero_add]
  constructor
  · rintro ⟨q, ⟨hq, hlt⟩, rfl⟩
    exact ⟨⟨q, hq, rfl⟩, by omega⟩
  · rintro ⟨⟨q, hq, rfl⟩, hlt⟩
    exact ⟨q, ⟨hq, by omega⟩, rfl⟩

namespace Pairing

theorem pair_cons (opening close : Char) (n : Nat) (pending : List Nat)
    (found : Std.HashMap Nat Nat) (c : Char) (cs : List Char) :
    pair opening close n pending found (c :: cs) =
      if c == opening then pair opening close (n + c.utf8Size) (n :: pending) found cs
      else if c == close then
        match pending with
        | start :: pending => pair opening close (n + c.utf8Size) pending (found.insert start n) cs
        | [] => pair opening close (n + c.utf8Size) [] found cs
      else pair opening close (n + c.utf8Size) pending found cs := by
  cases pending <;> rfl

/-- A delimiter that is no longer open stays with the one that closes it. -/
theorem getElem?_pair_of_notMem (hstart : start ∉ pending) (hn : start < n) :
    (pair opening close n pending found cs)[start]? = found[start]? := by
  induction cs generalizing n pending found with
  | nil => rfl
  | cons c cs ih =>
    have hn' : start < n + c.utf8Size := Nat.lt_add_right _ hn
    rw [pair_cons]
    split
    · refine ih ?_ hn'
      rw [List.mem_cons, not_or]
      exact ⟨Nat.ne_of_lt hn, hstart⟩
    · split
      · cases pending with
        | nil => exact ih hstart hn'
        | cons m pending =>
          rw [List.mem_cons, not_or] at hstart
          have hfound : (found.insert m n)[start]? = found[start]? := by
            rw [Std.HashMap.getElem?_insert, if_neg (by simpa using Ne.symm hstart.1)]
          exact (ih hstart.2 hn').trans hfound
      · exact ih hstart hn'

/-- A delimiter that is open, behind others, is closed where a search from it would get, when as many
are open in it. -/
theorem getElem?_pair {inner outer : List Nat} (hinner : ∀ m ∈ inner, start < m)
    (houter : start ∉ outer) (hfound : found[start]? = none) (hseen : seen ≠ []) :
    (pair opening close (start + width seen) (inner ++ start :: outer) found cs)[start]? =
      (reach? opening close (inner.length + 1) seen cs).map (start + ·) := by
  have hpos : start < start + width seen := Nat.lt_add_of_pos_right (width_pos hseen)
  induction cs generalizing inner seen found with
  | nil => exact hfound
  | cons c cs ih =>
    have hnext : start + width seen + c.utf8Size = start + width (c :: seen) := by
      rw [width]
      omega
    have hpos' : start < start + width (c :: seen) := hnext ▸ Nat.lt_add_right _ hpos
    rw [pair_cons, reach?_cons, hnext]
    split
    · have hinner' : ∀ m ∈ (start + width seen) :: inner, start < m :=
        List.forall_mem_cons.mpr ⟨hpos, hinner⟩
      exact ih hinner' hfound (List.cons_ne_nil c seen) hpos'
    · split
      · cases inner with
        | nil =>
          have hclosed : (found.insert start (start + width seen))[start]? =
              some (start + width seen) := Std.HashMap.getElem?_insert_self
          exact (getElem?_pair_of_notMem houter hpos').trans hclosed
        | cons m inner =>
          obtain ⟨hm, hinner⟩ := List.forall_mem_cons.mp hinner
          have hfound : (found.insert m (start + width seen))[start]? = none := by
            rw [Std.HashMap.getElem?_insert, if_neg (by simpa using Nat.ne_of_gt hm), hfound]
          rw [List.length_cons, if_neg (by omega)]
          exact ih hinner hfound (List.cons_ne_nil c seen) hpos'
      · exact ih hinner hfound (List.cons_ne_nil c seen) hpos'

/-- Behind the front of a text, what is open and what is closed lies in it. -/
theorem exists_pair_append (opening close : Char) (hpending : ∀ m ∈ pending, m < n)
    (hfound : ∀ k, n ≤ k → found[k]? = none) (a b : List Char) :
    ∃ pending' found', pair opening close n pending found (a ++ b) =
        pair opening close (n + width a) pending' found' b ∧
      (∀ m ∈ pending', m < n + width a) ∧ ∀ k, n + width a ≤ k → found'[k]? = none := by
  induction a generalizing n pending found with
  | nil => exact ⟨pending, found, rfl, hpending, hfound⟩
  | cons c a ih =>
    have hsize := c.utf8Size_pos
    have hpending' : ∀ m ∈ pending, m < n + c.utf8Size := fun m hm => Nat.lt_add_right _ (hpending m hm)
    have hfound' : ∀ k, n + c.utf8Size ≤ k → found[k]? = none := fun k hk =>
      hfound k (Nat.le_trans (Nat.le_add_right ..) hk)
    rw [List.cons_append, pair_cons, width, ← Nat.add_assoc]
    split
    · exact ih (List.forall_mem_cons.mpr ⟨Nat.lt_add_of_pos_right hsize, hpending'⟩) hfound'
    · split
      · cases pending with
        | nil => exact ih hpending' hfound'
        | cons m pending =>
          obtain ⟨hm, hpending'⟩ := List.forall_mem_cons.mp hpending'
          refine ih hpending' fun k hk => ?_
          rw [Std.HashMap.getElem?_insert, if_neg (by simp; omega), hfound' k hk]
      · exact ih hpending' hfound'

/-- Every opening delimiter has in the pairing of its text what a search from it finds. -/
theorem closingAt?_of (opening close : Char) (a b : List Char) :
    (of opening close (a ++ opening :: b)).closingAt? (width a) =
      Text.closingAt? opening close (a ++ opening :: b) (width a) := by
  have hnone : ∀ m ∈ ([] : List Nat), m < 0 := List.forall_mem_nil _
  have hempty : ∀ k, 0 ≤ k → (∅ : Std.HashMap Nat Nat)[k]? = none := fun _ _ =>
    Std.HashMap.getElem?_empty
  obtain ⟨pending, found, hpair, hpending, hfound⟩ :=
    exists_pair_append opening close hnone hempty a (opening :: b)
  rw [Nat.zero_add] at hpair hpending hfound
  have hopen : (pair opening close (width a + width [opening]) ([] ++ width a :: pending)
      found b)[width a]? = (reach? opening close 1 [opening] b).map (width a + ·) :=
    getElem?_pair (List.forall_mem_nil _) (fun hmem => Nat.lt_irrefl _ (hpending _ hmem))
      (hfound _ (Nat.le_refl _)) (List.cons_ne_nil opening [])
  rw [closingAt?_eq_reach?, dropBytes_width_append, reach?_cons, if_pos (beq_self_eq_true opening),
    closingAt?, of, hpair, pair_cons, if_pos (beq_self_eq_true opening)]
  exact hopen

end Pairing

end Pairs

/-! ## Separators inside brackets -/

/-- Inside a bracket a text whose brackets are paired is not cut, and a text without separators is
cut nowhere. -/
theorem topLevelPieces_of_closesAll {sep : Char} {depth : Nat} {cs : List Char}
    (h : closesAll isOpening isClosing depth cs) {around : Nat} (haround : 0 < around ∨ sep ∉ cs)
    (piece rest : List Char) :
    topLevelPieces sep (depth + around) piece (cs ++ rest) =
      topLevelPieces sep around (cs.reverse ++ piece) rest := by
  induction cs generalizing depth piece with
  | nil =>
    obtain rfl : depth = 0 := by simpa [closesAll] using h
    rw [Nat.zero_add, List.nil_append, List.reverse_nil, List.nil_append]
  | cons c cs ih =>
    have hdepth : ((c == sep) && depth + around == 0) = false := by
      rw [Bool.and_eq_false_iff]
      rcases haround with hpos | hsep
      · exact .inr (beq_false_of_ne (by omega))
      · exact .inl (beq_false_of_ne (ne_of_mem_of_not_mem List.mem_cons_self hsep))
    have haround : 0 < around ∨ sep ∉ cs :=
      haround.imp_right fun hsep hmem => hsep (List.mem_cons_of_mem c hmem)
    rw [List.cons_append, topLevelPieces, List.reverse_cons, List.append_assoc,
      List.singleton_append]
    split
    · next hc => rw [Nat.add_right_comm, ih (closesAll_of_opens h hc) haround]
    · next hc =>
      rw [Bool.not_eq_true] at hc
      split
      · next hcloses =>
        obtain ⟨hpos, hcs⟩ := closesAll_of_closes h hc hcloses
        rw [Nat.sub_add_comm hpos, ih hcs haround]
      · next hcloses =>
        rw [hdepth, if_neg Bool.false_ne_true,
          ih (closesAll_of_other h hc (Bool.eq_false_iff.mpr hcloses)) haround]

/-! ## Kinds of brackets -/

/-- Brackets of two kinds that are closed each are closed together. -/
theorem closesAll_or {opens closes opens' closes' : Char → Bool}
    (hdisjoint : ∀ c, (opens c || closes c) = true → (opens' c || closes' c) = false)
    {depth depth' : Nat} {cs : List Char} (h : closesAll opens closes depth cs)
    (h' : closesAll opens' closes' depth' cs) :
    closesAll (fun c => opens c || opens' c) (fun c => closes c || closes' c) (depth + depth')
      cs := by
  induction cs generalizing depth depth' with
  | nil =>
    obtain rfl : depth = 0 := by simpa [closesAll] using h
    obtain rfl : depth' = 0 := by simpa [closesAll] using h'
    rfl
  | cons c cs ih =>
    rw [closesAll]
    -- a bracket of one kind is any other character to the other kind
    cases hopens : opens c with
    | true =>
      obtain ⟨hopens', hcloses'⟩ := Bool.or_eq_false_iff.mp (hdisjoint c (by simp [hopens]))
      rw [Bool.true_or, if_pos rfl, Nat.add_right_comm]
      exact ih (closesAll_of_opens h hopens) (closesAll_of_other h' hopens' hcloses')
    | false =>
      cases hcloses : closes c with
      | true =>
        obtain ⟨hopens', hcloses'⟩ := Bool.or_eq_false_iff.mp (hdisjoint c (by simp [hcloses]))
        obtain ⟨hpos, hcs⟩ := closesAll_of_closes h hopens hcloses
        rw [hopens', Bool.or_false, if_neg Bool.false_ne_true, Bool.true_or, if_pos rfl,
          decide_eq_true (Nat.add_pos_left hpos _), Bool.true_and, Nat.sub_add_comm hpos]
        exact ih hcs (closesAll_of_other h' hopens' hcloses')
      | false =>
        have hcs := closesAll_of_other h hopens hcloses
        rw [Bool.false_or, Bool.false_or]
        cases hopens' : opens' c with
        | true =>
          rw [if_pos rfl, Nat.add_assoc]
          exact ih hcs (closesAll_of_opens h' hopens')
        | false =>
          rw [if_neg Bool.false_ne_true]
          cases hcloses' : closes' c with
          | true =>
            obtain ⟨hpos, hcs'⟩ := closesAll_of_closes h' hopens' hcloses'
            rw [if_pos rfl, decide_eq_true (Nat.add_pos_right _ hpos), Bool.true_and,
              Nat.add_sub_assoc hpos]
            exact ih hcs hcs'
          | false =>
            rw [if_neg Bool.false_ne_true]
            exact ih hcs (closesAll_of_other h' hopens' hcloses')

/-- A text closes what it opens, whatever the kind, and counts the kinds one by one. -/
structure IsBracketBalanced (cs : List Char) : Prop where
  parentheses : IsPaired (· == '(') (· == ')') cs
  squares : IsPaired (· == '[') (· == ']') cs
  braces : IsPaired (· == '\x7b') (· == '\x7d') cs
  angles : IsPaired (· == '<') (· == '>') cs

instance (cs : List Char) : Decidable (IsBracketBalanced cs) :=
  decidable_of_iff (IsPaired (· == '(') (· == ')') cs ∧ IsPaired (· == '[') (· == ']') cs ∧
    IsPaired (· == '\x7b') (· == '\x7d') cs ∧ IsPaired (· == '<') (· == '>') cs)
    ⟨fun ⟨hparentheses, hsquares, hbraces, hangles⟩ => ⟨hparentheses, hsquares, hbraces, hangles⟩,
      fun h => ⟨h.parentheses, h.squares, h.braces, h.angles⟩⟩

namespace IsBracketBalanced

variable {cs : List Char}

theorem isPaired (h : IsBracketBalanced cs) : IsPaired isOpening isClosing cs := by
  have hsquares (c : Char) : (c == '(' || c == ')') = true → (c == '[' || c == ']') = false := by
    simp only [Bool.or_eq_true, beq_iff_eq]
    rintro (rfl | rfl) <;> decide
  have hbraces (c : Char) : ((c == '(' || c == '[') || (c == ')' || c == ']')) = true →
      (c == '\x7b' || c == '\x7d') = false := by
    simp only [Bool.or_eq_true, beq_iff_eq]
    rintro ((rfl | rfl) | (rfl | rfl)) <;> decide
  have hangles (c : Char) : (((c == '(' || c == '[') || c == '\x7b') ||
      ((c == ')' || c == ']') || c == '\x7d')) = true → (c == '<' || c == '>') = false := by
    simp only [Bool.or_eq_true, beq_iff_eq]
    rintro (((rfl | rfl) | rfl) | ((rfl | rfl) | rfl)) <;> decide
  exact closesAll_or hangles (closesAll_or hbraces (closesAll_or hsquares h.parentheses h.squares)
    h.braces) h.angles

theorem append {rest : List Char} (h : IsBracketBalanced cs) (hrest : IsBracketBalanced rest) :
    IsBracketBalanced (cs ++ rest) :=
  ⟨h.parentheses.append hrest.parentheses, h.squares.append hrest.squares,
    h.braces.append hrest.braces, h.angles.append hrest.angles⟩

end IsBracketBalanced

end MigrationAudit.Text
