import MigrationAudit.Proofs.Text.Slices
import MigrationAudit.Text.Block
import MigrationAudit.Text.Bracket
import MigrationAudit.Text.Cursor
import Mathlib.Data.List.TakeWhile

/-!
# Texts that go on

A reader that stops before the last character of a text reads the same when the text goes on behind
it. So what is found in a text whose last character belongs to no word and is no white space is
found in every longer text as well.
-/

namespace MigrationAudit.Text

section Runs

variable {p : Char → Bool} {a : Char} {cs : List Char}

/-- A run that ends before the text does is the same in every longer text. -/
theorem splitWhile_append (h : cs.dropWhile p ≠ []) (more : List Char) :
    (cs ++ more).takeWhile p = cs.takeWhile p ∧
      (cs ++ more).dropWhile p = cs.dropWhile p ++ more := by
  have hsplit := congrArg List.length (List.takeWhile_append_dropWhile (p := p) (l := cs))
  have hpos := List.length_pos_iff.mpr h
  rw [List.length_append] at hsplit
  constructor
  · rw [List.takeWhile_append, if_neg (by omega)]
  · rw [List.dropWhile_append, if_neg (by simpa using h)]

theorem getLast?_dropWhile (h : cs.getLast? = some a) (ha : p a = false) :
    (cs.dropWhile p).getLast? = some a := by
  have hne : cs.dropWhile p ≠ [] := by
    intro hnil
    have hall := List.dropWhile_eq_nil_iff.mp hnil a (List.mem_of_getLast? h)
    simp [ha] at hall
  rwa [← List.takeWhile_append_dropWhile (p := p) (l := cs),
    List.getLast?_append_of_ne_nil _ hne] at h

end Runs

theorem closeFrom_append_right {opening close : Char} {depth : Nat}
    {seen cs inside rest : List Char}
    (h : closeFrom opening close depth seen cs = some (inside, rest)) (more : List Char) :
    closeFrom opening close depth seen (cs ++ more) = some (inside, rest ++ more) := by
  fun_induction closeFrom opening close depth seen cs with
  | case1 => simp at h
  | case2 depth seen c cs hc ih => rw [List.cons_append, closeFrom, if_pos hc, ih h]
  | case3 depth seen c cs hc hc' hdepth =>
    obtain ⟨rfl, rfl⟩ := Prod.mk.inj (Option.some.inj h)
    rw [List.cons_append, closeFrom, if_neg hc, if_pos hc', if_pos hdepth]
  | case4 depth seen c cs hc hc' hdepth ih =>
    rw [List.cons_append, closeFrom, if_neg hc, if_pos hc', if_neg hdepth, ih h]
  | case5 depth seen c cs hc hc' ih =>
    rw [List.cons_append, closeFrom, if_neg hc, if_neg hc', ih h]

namespace Cursor

def extend (c : Cursor) (more : List Char) : Cursor := { c with after := c.after ++ more }

def EndsWith (c : Cursor) (a : Char) : Prop := c.after.getLast? = some a

variable {c : Cursor} {a : Char} {more : List Char}

@[simp] theorem offset_extend (c : Cursor) (more : List Char) :
    (c.extend more).offset = c.offset := rfl

@[simp] theorem before_extend (c : Cursor) (more : List Char) :
    (c.extend more).before = c.before := rfl

@[simp] theorem after_extend (c : Cursor) (more : List Char) :
    (c.extend more).after = c.after ++ more := rfl

theorem advance_extend (c : Cursor) (moved rest more : List Char) :
    (c.extend more).advance moved (rest ++ more) = (c.advance moved rest).extend more := rfl

theorem EndsWith.ne_nil (h : c.EndsWith a) : c.after ≠ [] := by
  intro hnil
  simp [EndsWith, hnil] at h

theorem EndsWith.of_leads {d : Cursor} (h : c.EndsWith a) (hlead : c.Leads d) (hne : d.after ≠ []) :
    d.EndsWith a := by
  obtain ⟨moved, hafter, -⟩ := hlead
  rwa [EndsWith, ← List.getLast?_append_of_ne_nil moved hne, ← hafter]

theorem EndsWith.head?_extend (h : c.EndsWith a) (more : List Char) :
    (c.extend more).after.head? = c.after.head? := List.head?_append_of_ne_nil _ h.ne_nil

theorem skipWhile_extend {p : Char → Bool} (h : (c.skipWhile p).after ≠ []) (more : List Char) :
    (c.extend more).skipWhile p = (c.skipWhile p).extend more := by
  obtain ⟨htake, hdrop⟩ := splitWhile_append h more
  simp only [skipWhile, after_extend, htake, hdrop, advance_extend]

theorem EndsWith.skipWhile {p : Char → Bool} (h : c.EndsWith a) (ha : p a = false) :
    (c.skipWhile p).EndsWith a := getLast?_dropWhile h ha

theorem EndsWith.next_extend (h : c.EndsWith a) (more : List Char) :
    (c.extend more).next = c.next.extend more := by
  obtain ⟨b, rest, hafter⟩ := List.exists_cons_of_ne_nil h.ne_nil
  simp only [next, after_extend, hafter, List.cons_append, advance_extend]

theorem EndsWith.next (h : c.EndsWith a) (hhead : c.after.head? ≠ some a) : c.next.EndsWith a := by
  obtain ⟨b, rest, hafter⟩ := List.exists_cons_of_ne_nil h.ne_nil
  have hrest : rest ≠ [] := by
    rintro rfl
    simp_all [EndsWith]
  rwa [EndsWith, Cursor.next, hafter, after_advance, ← List.getLast?_cons_of_ne_nil hrest, ← hafter]

end Cursor

/-! ## More in front -/

/-- The cursor in a text that has more in front of its beginning. -/
def Cursor.prepend (c : Cursor) (seen : List Char) : Cursor := { c with before := c.before ++ seen }

theorem Cursor.skipWhile_prepend (p : Char → Bool) (c : Cursor) (seen : List Char) :
    (c.prepend seen).skipWhile p = (c.skipWhile p).prepend seen := by
  simp [skipWhile, prepend, advance, List.reverseAux_eq]

theorem Cursor.adjacentWord?_prepend (c : Cursor) (seen : List Char) :
    (c.prepend seen).adjacentWord? = c.adjacentWord?.map fun w =>
      ⟨w.first.prepend seen, w.text, w.behind.prepend seen⟩ := by
  have hhere : ∀ d : Cursor, (d.prepend seen).wordHere =
      ⟨d.prepend seen, d.wordHere.text, d.wordHere.behind.prepend seen⟩ := fun d => by
    rw [wordHere, skipWhile_prepend]
    rfl
  have hskip : (c.prepend seen).skipBlank = c.skipBlank.prepend seen := skipWhile_prepend ..
  simp only [adjacentWord?, hskip, hhere]
  by_cases hempty : c.skipBlank.wordHere.text.isEmpty = true
  · rw [if_pos hempty, if_pos hempty, Option.map_none]
  · rw [if_neg hempty, if_neg hempty, Option.map_some]
    rfl

/-! ## Words -/

def Word.extend (w : Word) (more : List Char) : Word :=
  ⟨w.first.extend more, w.text, w.behind.extend more⟩

@[simp] theorem Word.lower_extend (w : Word) (more : List Char) : (w.extend more).lower = w.lower :=
  rfl

namespace Cursor.EndsWith

variable {c : Cursor} {a : Char}

theorem wordHere_extend (h : c.EndsWith a) (ha : isIdent a = false) (more : List Char) :
    (c.extend more).wordHere = c.wordHere.extend more := by
  obtain ⟨htake, -⟩ := splitWhile_append (h.skipWhile ha).ne_nil more
  simp only [wordHere, Word.extend, after_extend, htake, skipWhile_extend (h.skipWhile ha).ne_nil]

theorem adjacentWord?_extend (h : c.EndsWith a) (hident : isIdent a = false)
    (hblank : isBlank a = false) (more : List Char) :
    (c.extend more).adjacentWord? = c.adjacentWord?.map (·.extend more) := by
  have hskip : (c.extend more).skipBlank.wordHere = c.skipBlank.wordHere.extend more := by
    rw [skipBlank, skipWhile_extend (h.skipWhile hblank).ne_nil,
      (h.skipWhile hblank).wordHere_extend hident]
    rfl
  simp only [adjacentWord?, hskip, Word.extend]
  split <;> rfl

theorem of_adjacentWord? (h : c.EndsWith a) (hident : isIdent a = false)
    (hblank : isBlank a = false) {w : Word} (hw : c.adjacentWord? = some w) :
    w.behind.EndsWith a := by
  simp only [adjacentWord?] at hw
  split at hw
  · simp at hw
  · obtain rfl := Option.some.inj hw
    exact (h.skipWhile hblank).skipWhile hident

theorem of_nextWord? (h : c.EndsWith a) (hident : isIdent a = false) {w : Word}
    (hw : c.nextWord? = some w) : w.first.EndsWith a ∧ w.behind.EndsWith a := by
  obtain ⟨b, rest, hfirst, -⟩ := ident_of_nextWord? hw
  have hends := h.of_leads (leads_nextWord? hw).1 (by simp [hfirst])
  rw [behind_of_nextWord? hw]
  exact ⟨hends, hends.skipWhile hident⟩

theorem nextWord?_extend (h : c.EndsWith a) (hident : isIdent a = false) {w : Word}
    (hw : c.nextWord? = some w) (more : List Char) :
    (c.extend more).nextWord? = some (w.extend more) := by
  obtain ⟨hfirst, -⟩ := h.of_nextWord? hident hw
  simp only [nextWord?] at hw ⊢
  split at hw
  · simp at hw
  · next hne =>
    obtain rfl := Option.some.inj hw
    have hskip := skipWhile_extend (c := c) (by simpa using hne) more
    have hword : ((c.skipWhile fun b => !isIdent b).extend more).wordHere =
        (c.skipWhile fun b => !isIdent b).wordHere.extend more := hfirst.wordHere_extend hident more
    rw [hskip, hword, if_neg]
    simp_all

end Cursor.EndsWith

/-! ## Blocks -/

theorem scanBlockAt_of_nextWord? {step : Word → BlockStep} {c : Cursor} {w : Word}
    (h : c.nextWord? = some w) (depth deepest : Nat) :
    scanBlockAt step depth deepest c =
      match step w with
      | .opens => scanBlockAt step (depth + 1) (max deepest (depth + 1)) w.behind
      | .closes =>
        if depth ≤ 1 then ⟨.closed w, deepest⟩ else scanBlockAt step (depth - 1) deepest w.behind
      | .aborts => ⟨.aborted w, deepest⟩
      | .skips => scanBlockAt step depth deepest w.behind := by
  rw [scanBlockAt]
  split
  · next hnone => simp [h] at hnone
  · next v hv =>
    obtain rfl : v = w := Option.some.inj (hv.symm.trans h)
    rfl

/-- A block that is closed in a text is closed by the same word when the text goes on. -/
theorem scanBlockAt_extend {step : Word → BlockStep} {a : Char} {more : List Char}
    (hident : isIdent a = false)
    (hstep : ∀ w : Word, w.behind.EndsWith a → step (w.extend more) = step w) {depth deepest : Nat}
    {c : Cursor} (h : c.EndsWith a) {w : Word}
    (hclosed : (scanBlockAt step depth deepest c).ending = .closed w) :
    w.behind.EndsWith a ∧
      (scanBlockAt step depth deepest (c.extend more)).ending = .closed (w.extend more) := by
  fun_induction scanBlockAt step depth deepest c with
  | case1 => simp at hclosed
  | case2 depth deepest c v hv hsv ih | case6 depth deepest c v hv hsv ih =>
    obtain ⟨-, hbehind⟩ := h.of_nextWord? hident hv
    rw [scanBlockAt_of_nextWord? (h.nextWord?_extend hident hv more), hstep v hbehind, hsv]
    exact ih hbehind hclosed
  | case3 depth deepest c v hv hsv hdepth =>
    obtain rfl := BlockEnd.closed.inj hclosed
    obtain ⟨-, hbehind⟩ := h.of_nextWord? hident hv
    rw [scanBlockAt_of_nextWord? (h.nextWord?_extend hident hv more), hstep v hbehind, hsv]
    simp only [if_pos hdepth]
    exact ⟨hbehind, trivial⟩
  | case4 depth deepest c v hv hsv hdepth ih =>
    obtain ⟨-, hbehind⟩ := h.of_nextWord? hident hv
    rw [scanBlockAt_of_nextWord? (h.nextWord?_extend hident hv more), hstep v hbehind, hsv]
    simp only [if_neg hdepth]
    exact ih hbehind hclosed
  | case5 => simp at hclosed

/-! ## Matches -/

namespace Cursor

theorem placesFrom_append (offset : Nat) (seen a b : List Char) :
    placesFrom offset seen (a ++ b) =
      (placesFrom offset seen a).map (·.extend b) ++
        placesFrom (offset + width a) (a.reverse ++ seen) b := by
  induction a generalizing offset seen with
  | nil => rfl
  | cons c a ih =>
    rw [List.cons_append, placesFrom, ih, placesFrom, List.map_cons, width, Nat.add_assoc,
      List.reverse_cons, List.append_assoc]
    rfl

theorem leads_of_mem_placesFrom {offset : Nat} {seen cs : List Char} :
    ∀ c ∈ placesFrom offset seen cs, (Cursor.mk offset seen cs).Leads c ∧ c.after ≠ [] := by
  induction cs generalizing offset seen with
  | nil => exact fun c hc => absurd hc List.not_mem_nil
  | cons a cs ih =>
    refine List.forall_mem_cons.mpr ⟨⟨.refl _, List.cons_ne_nil a cs⟩, fun c hc => ?_⟩
    obtain ⟨hlead, hne⟩ := ih c hc
    have hnext : (Cursor.mk offset seen (a :: cs)).Leads ⟨offset + a.utf8Size, a :: seen, cs⟩ :=
      ⟨[a], rfl, rfl⟩
    exact ⟨hnext.trans hlead, hne⟩

end Cursor

section Matches

variable {α : Type} {read? : Cursor → Option (α × Cursor)}

def Match.extend (m : Match α) (more : List Char) : Match α :=
  ⟨m.first.extend more, m.value, m.behind.extend more⟩

theorem disjointFrom_sublist (n : Nat) (found : List (Match α)) :
    (disjointFrom n found).Sublist found := by
  fun_induction disjointFrom n found with
  | case1 => exact .refl _
  | case2 n m found hlt ih => exact ih.cons m
  | case3 n m found hlt ih => exact ih.cons_cons m

theorem disjointFrom_map_extend (n : Nat) (found : List (Match α)) (more : List Char) :
    disjointFrom n (found.map (·.extend more)) = (disjointFrom n found).map (·.extend more) := by
  fun_induction disjointFrom n found with
  | case1 => rfl
  | case2 n m found hlt ih => exact (if_pos hlt).trans ih
  | case3 n m found hlt ih => exact (if_neg hlt).trans (congrArg (m.extend more :: ·) ih)

theorem exists_disjointFrom_append (n : Nat) (found found' : List (Match α)) :
    ∃ n', disjointFrom n (found ++ found') = disjointFrom n found ++ disjointFrom n' found' := by
  fun_induction disjointFrom n found with
  | case1 n => exact ⟨n, rfl⟩
  | case2 n m found hlt ih =>
    obtain ⟨n', ih⟩ := ih
    exact ⟨n', (if_pos hlt).trans ih⟩
  | case3 n m found hlt ih =>
    obtain ⟨n', ih⟩ := ih
    exact ⟨n', (if_neg hlt).trans (congrArg (m :: ·) ih)⟩

/-- What a reader finds at a cursor. -/
def matchAt? (read? : Cursor → Option (α × Cursor)) (c : Cursor) : Option (Match α) :=
  (read? c).map fun (value, behind) => ⟨c, value, behind⟩

theorem allMatches_eq (read? : Cursor → Option (α × Cursor)) (cs : List Char) :
    allMatches read? cs = disjointFrom 0 ((Cursor.places cs).filterMap (matchAt? read?)) := rfl

theorem matchAt?_eq_some_iff {c : Cursor} {m : Match α} :
    matchAt? read? c = some m ↔ c = m.first ∧ read? c = some (m.value, m.behind) := by
  rw [matchAt?, Option.map_eq_some_iff]
  constructor
  · rintro ⟨⟨value, behind⟩, hread, rfl⟩
    exact ⟨rfl, hread⟩
  · rintro ⟨rfl, hread⟩
    exact ⟨(m.value, m.behind), hread, rfl⟩

theorem leads_of_mem_allMatches {cs : List Char} {m : Match α} (h : m ∈ allMatches read? cs) :
    (Cursor.ofText cs).Leads m.first ∧ m.first.after ≠ [] ∧
      read? m.first = some (m.value, m.behind) := by
  obtain ⟨c, hc, hmatch⟩ := List.mem_filterMap.mp ((disjointFrom_sublist ..).mem h)
  obtain ⟨rfl, hread⟩ := matchAt?_eq_some_iff.mp hmatch
  obtain ⟨hlead, hne⟩ := Cursor.leads_of_mem_placesFrom m.first hc
  exact ⟨hlead, hne, hread⟩

/-- What is read at a place of a text is the only match when nothing is read anywhere else. -/
theorem allMatches_eq_singleton {seen cs : List Char} {value : α} {d : Cursor} (hne : cs ≠ [])
    (hread : read? ⟨width seen, seen.reverse, cs⟩ = some (value, d))
    (hnone : ∀ c, (Cursor.ofText (seen ++ cs)).Leads c → c.offset ≠ width seen → read? c = none) :
    allMatches read? (seen ++ cs) = [⟨⟨width seen, seen.reverse, cs⟩, value, d⟩] := by
  obtain ⟨a, cs, rfl⟩ := List.exists_cons_of_ne_nil hne
  let earlier := (Cursor.placesFrom 0 [] seen).map (·.extend (a :: cs))
  let later := Cursor.placesFrom (width seen + a.utf8Size) (a :: seen.reverse) cs
  have hplaces : Cursor.places (seen ++ a :: cs) =
      earlier ++ ⟨width seen, seen.reverse, a :: cs⟩ :: later := by
    rw [Cursor.places, Cursor.placesFrom_append, Nat.zero_add, List.append_nil]
    rfl
  have hskip : ∀ c ∈ Cursor.places (seen ++ a :: cs), c.offset ≠ width seen →
      matchAt? read? c = none := fun c hc hoffset => by
    rw [matchAt?, hnone c (Cursor.leads_of_mem_placesFrom c hc).1 hoffset, Option.map_none]
  rw [hplaces] at hskip
  have hearlier : earlier.filterMap (matchAt? read?) = [] := by
    refine List.filterMap_eq_nil_iff.mpr fun c hc => hskip c (by simp [hc]) ?_
    obtain ⟨e, he, rfl⟩ := List.mem_map.mp hc
    obtain ⟨hlead, hne⟩ := Cursor.leads_of_mem_placesFrom e he
    have hsum := Cursor.offset_add_width_after hlead
    have hpos := width_pos hne
    simp only [Cursor.offset_extend] at hsum ⊢
    omega
  have hlater : later.filterMap (matchAt? read?) = [] := by
    refine List.filterMap_eq_nil_iff.mpr fun c hc => hskip c (by simp [hc]) ?_
    have hle := (Cursor.leads_of_mem_placesFrom c hc).1.offset_le
    have hpos := a.utf8Size_pos
    simp only at hle
    omega
  have hmatch : matchAt? read? ⟨width seen, seen.reverse, a :: cs⟩ =
      some ⟨⟨width seen, seen.reverse, a :: cs⟩, value, d⟩ :=
    matchAt?_eq_some_iff.mpr ⟨rfl, hread⟩
  rw [allMatches_eq, hplaces, List.filterMap_append, hearlier, List.filterMap_cons_some hmatch,
    hlater, List.nil_append, disjointFrom, if_neg (Nat.not_lt_zero _), disjointFrom]

/-- What a reader finds in a text, it finds first when the text goes on, if what it reads at a place
does not depend on what follows the last character. -/
theorem exists_allMatches_append {a : Char} {cs : List Char} (h : cs.getLast? = some a)
    (more : List Char)
    (hread : ∀ c : Cursor, c.EndsWith a →
      read? (c.extend more) = (read? c).map fun (value, behind) => (value, behind.extend more)) :
    ∃ rest, allMatches read? (cs ++ more) = (allMatches read? cs).map (·.extend more) ++ rest ∧
      ∀ m ∈ rest, width cs ≤ m.first.offset := by
  have hfound : ((Cursor.places cs).map (·.extend more)).filterMap (matchAt? read?) =
      ((Cursor.places cs).filterMap (matchAt? read?)).map (·.extend more) := by
    rw [List.filterMap_map, List.map_filterMap]
    refine List.filterMap_congr fun c hc => ?_
    obtain ⟨hlead, hne⟩ := Cursor.leads_of_mem_placesFrom c hc
    have hends : (Cursor.ofText cs).EndsWith a := h
    simp only [matchAt?, Function.comp_apply, hread c (hends.of_leads hlead hne), Option.map_map]
    rfl
  have hplaces : Cursor.places (cs ++ more) =
      (Cursor.places cs).map (·.extend more) ++
        Cursor.placesFrom (0 + width cs) (cs.reverse ++ []) more :=
    Cursor.placesFrom_append 0 [] cs more
  obtain ⟨n, hsplit⟩ := exists_disjointFrom_append 0
    (((Cursor.places cs).filterMap (matchAt? read?)).map (·.extend more))
    ((Cursor.placesFrom (0 + width cs) (cs.reverse ++ []) more).filterMap (matchAt? read?))
  rw [allMatches_eq, hplaces, List.filterMap_append, hfound, hsplit, disjointFrom_map_extend]
  refine ⟨_, rfl, fun m hm => ?_⟩
  obtain ⟨c, hc, hmatch⟩ := List.mem_filterMap.mp ((disjointFrom_sublist ..).mem hm)
  obtain ⟨rfl, -⟩ := matchAt?_eq_some_iff.mp hmatch
  have hle := (Cursor.leads_of_mem_placesFrom m.first hc).1.offset_le
  rwa [Nat.zero_add] at hle

end Matches

end MigrationAudit.Text
