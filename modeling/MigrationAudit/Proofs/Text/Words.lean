import MigrationAudit.Text.Word
import MigrationAudit.Proofs.Text.Slices
import Mathlib.Data.List.TakeWhile

/-!
# Words of a text that is cut

A text that is cut where no word reaches over the cut has the words of its parts. So a scan that
always stops between words can be followed part by part, and no word is met twice.
-/

namespace MigrationAudit.Text

def blankCodes : List Nat :=
  List.range' 0x9 5 ++ [0x20, 0x85, 0xA0, 0x1680] ++ List.range' 0x2000 11 ++
    [0x2028, 0x2029, 0x202F, 0x205F, 0x3000]

theorem toNat_mem_blankCodes {a : Char} (h : isBlank a = true) : a.toNat ∈ blankCodes := by
  simp only [isBlank, Bool.or_eq_true, Bool.and_eq_true, decide_eq_true_eq, beq_iff_eq] at h
  simp only [blankCodes, List.mem_append, List.mem_range'_1, List.mem_cons, List.not_mem_nil]
  omega

theorem isIdent_of_isBlank (a : Char) (h : isBlank a = true) : isIdent a = false := by
  have hall : ∀ n ∈ blankCodes, isIdent (Char.ofNat n) = false := by decide +kernel
  rw [← Char.ofNat_toNat a]
  exact hall _ (toNat_mem_blankCodes h)

theorem isBlank_of_isIdent {a : Char} (h : isIdent a = true) : isBlank a = false := by
  by_contra hblank
  simp [isIdent_of_isBlank a (by simpa using hblank)] at h

theorem isIdent_space : isIdent ' ' = false := isIdent_of_isBlank ' ' rfl

theorem head?_any_dropWhile (p : Char → Bool) (cs : List Char) :
    (cs.dropWhile p).head?.any p = false := by
  have := List.head?_dropWhile_not p cs
  cases hhead : (cs.dropWhile p).head? with
  | none => rfl
  | some a => simpa [hhead] using this

namespace Cursor

theorem advance_advance (c : Cursor) (moved more rest rest' : List Char) :
    (c.advance moved rest).advance more rest' = c.advance (moved ++ more) rest' := by
  simp [advance, List.reverseAux_eq, Nat.add_assoc]

@[simp] theorem advance_nil (c : Cursor) : c.advance [] c.after = c := rfl

/-- No word reaches over the cursor. -/
def AtEdge (c : Cursor) : Prop :=
  c.before.head?.any isIdent = false ∨ c.after.head?.any isIdent = false

theorem atEdge_of_after_eq_nil {c : Cursor} (h : c.after = []) : c.AtEdge := by
  right
  simp [h]

theorem head?_before_advance (c : Cursor) (moved rest : List Char) :
    (c.advance moved rest).before.head? = (moved.getLast?).or c.before.head? := by
  simp [advance, List.reverseAux_eq]

theorem atEdge_next {c : Cursor} {a : Char} {rest : List Char} (hafter : c.after = a :: rest)
    (ha : isIdent a = false) : c.next.AtEdge := by
  left
  simp only [next, hafter]
  rw [head?_before_advance, List.getLast?_singleton, Option.some_or, Option.any_some, ha]

/-- Moving forward over whole words leads from `c` to `d`. -/
structure LeadsWhole (c d : Cursor) : Prop where
  leads : c.Leads d
  edge : d = c ∨ d.AtEdge

namespace LeadsWhole

variable {c d e : Cursor}

theorem refl (c : Cursor) : c.LeadsWhole c := ⟨.refl c, .inl rfl⟩

theorem trans (h : c.LeadsWhole d) (k : d.LeadsWhole e) : c.LeadsWhole e := by
  refine ⟨h.leads.trans k.leads, ?_⟩
  rcases k.edge with rfl | hedge
  · exact h.edge
  · exact .inr hedge

theorem offset_le (h : c.LeadsWhole d) : c.offset ≤ d.offset := h.leads.offset_le

end LeadsWhole

theorem leadsWhole_skipWhile {p : Char → Bool} (hp : ∀ a, p a = true → isIdent a = false)
    (c : Cursor) : c.LeadsWhole (c.skipWhile p) := by
  refine ⟨leads_skipWhile p c, ?_⟩
  cases hmoved : (c.after.takeWhile p).getLast? with
  | none =>
    left
    rw [List.getLast?_eq_none_iff] at hmoved
    have hsplit := List.takeWhile_append_dropWhile (p := p) (l := c.after)
    rw [hmoved, List.nil_append] at hsplit
    rw [skipWhile, hmoved, hsplit, advance_nil]
  | some a =>
    right
    left
    have ha := hp a (List.mem_takeWhile_imp (List.mem_of_getLast? hmoved))
    rw [skipWhile, head?_before_advance, hmoved]
    simp [ha]

theorem leadsWhole_wordHere (c : Cursor) : c.LeadsWhole c.wordHere.behind := by
  refine ⟨leads_wordHere c, .inr (.inr ?_)⟩
  rw [wordHere, skipWhile, after_advance]
  exact head?_any_dropWhile isIdent c.after

theorem leadsWhole_nextWord? {c : Cursor} {w : Word} (h : c.nextWord? = some w) :
    c.LeadsWhole w.first ∧ w.first.LeadsWhole w.behind := by
  simp only [nextWord?] at h
  split at h
  · simp at h
  · obtain rfl := Option.some.inj h
    exact ⟨leadsWhole_skipWhile (by simp) c, leadsWhole_wordHere _⟩

theorem leadsWhole_behind {c : Cursor} {w : Word} (h : c.nextWord? = some w) :
    c.LeadsWhole w.behind :=
  (leadsWhole_nextWord? h).1.trans (leadsWhole_nextWord? h).2

theorem leadsWhole_toEnd (c : Cursor) : c.LeadsWhole c.toEnd :=
  ⟨leads_toEnd c, .inr (atEdge_of_after_eq_nil rfl)⟩

/-! ## The next word -/

theorem nextWord?_eq_none_iff {c : Cursor} :
    c.nextWord? = none ↔ ∀ a ∈ c.after, isIdent a = false := by
  simp [nextWord?, skipWhile, List.dropWhile_eq_nil_iff]

theorem wordHere_of_after {c : Cursor} {word rest : List Char} (hafter : c.after = word ++ rest)
    (hword : ∀ a ∈ word, isIdent a = true) (hrest : rest.head?.any isIdent = false) :
    c.wordHere = ⟨c, word, c.advance word rest⟩ := by
  have hrun : (word ++ rest).takeWhile isIdent = word ∧ (word ++ rest).dropWhile isIdent = rest := by
    rw [List.takeWhile_append_of_pos hword, List.dropWhile_append_of_pos hword]
    cases rest with
    | nil => simp
    | cons b rest =>
      have hb : isIdent b = false := by simpa using hrest
      simp [hb]
  rw [wordHere, skipWhile, hafter, hrun.1, hrun.2]

theorem nextWord?_of_after {c : Cursor} {gap word rest : List Char}
    (hafter : c.after = gap ++ (word ++ rest)) (hgap : ∀ a ∈ gap, isIdent a = false)
    (hne : word ≠ []) (hword : ∀ a ∈ word, isIdent a = true)
    (hrest : rest.head?.any isIdent = false) :
    c.nextWord? =
      some ⟨c.advance gap (word ++ rest), word, c.advance (gap ++ word) rest⟩ := by
  have hskip : c.skipWhile (fun b => !isIdent b) = c.advance gap (word ++ rest) := by
    obtain ⟨a, word, rfl⟩ := List.exists_cons_of_ne_nil hne
    have ha : isIdent a = true := hword a List.mem_cons_self
    rw [skipWhile, hafter, List.takeWhile_append_of_pos (by simpa using hgap),
      List.dropWhile_append_of_pos (by simpa using hgap)]
    simp [ha]
  have hhere := wordHere_of_after (after_advance c gap (word ++ rest)) hword hrest
  rw [advance_advance] at hhere
  simp only [nextWord?, hskip, hhere]
  simp [hne]

/-- Behind white space the word is adjacent. -/
theorem adjacentWord?_of_after {c : Cursor} {gap word rest : List Char}
    (hafter : c.after = gap ++ (word ++ rest)) (hgap : ∀ a ∈ gap, isBlank a = true)
    (hne : word ≠ []) (hword : ∀ a ∈ word, isIdent a = true)
    (hrest : rest.head?.any isIdent = false) :
    c.adjacentWord? =
      some ⟨c.advance gap (word ++ rest), word, c.advance (gap ++ word) rest⟩ := by
  have hskip : c.skipBlank = c.advance gap (word ++ rest) := by
    obtain ⟨a, word, rfl⟩ := List.exists_cons_of_ne_nil hne
    have ha : isBlank a = false := by
      by_contra hblank
      have hident := isIdent_of_isBlank a (by simpa using hblank)
      rw [hword a List.mem_cons_self] at hident
      exact absurd hident Bool.true_eq_false.mp
    rw [skipBlank, skipWhile, hafter, List.takeWhile_append_of_pos hgap,
      List.dropWhile_append_of_pos hgap]
    simp [ha]
  have hhere := wordHere_of_after (after_advance c gap (word ++ rest)) hword hrest
  rw [advance_advance] at hhere
  simp only [adjacentWord?, hskip, hhere]
  simp [hne]

theorem nextWord?_advance {c : Cursor} {gap rest : List Char} (hafter : c.after = gap ++ rest)
    (hgap : ∀ a ∈ gap, isIdent a = false) : (c.advance gap rest).nextWord? = c.nextWord? := by
  have hskip : (c.advance gap rest).skipWhile (fun a => !isIdent a) =
      c.skipWhile fun a => !isIdent a := by
    rw [skipWhile, skipWhile, hafter, List.takeWhile_append_of_pos (by simpa using hgap),
      List.dropWhile_append_of_pos (by simpa using hgap), after_advance, advance_advance]
  rw [nextWord?, nextWord?, hskip]

end Cursor

/-- A word without what stands around it. -/
def Word.spot (w : Word) : Nat × List Char := (w.start, w.text)

/-- The words of a text that starts at byte `n`, each with its position. -/
def spots (n : Nat) (cs : List Char) : List (Nat × List Char) :=
  (Cursor.words ⟨n, [], cs⟩).map Word.spot

namespace Cursor

theorem words_of_nextWord?_eq_none {c : Cursor} (h : c.nextWord? = none) : c.words = [] := by
  rw [words]
  split <;> simp_all

theorem words_of_nextWord? {c : Cursor} {w : Word} (h : c.nextWord? = some w) :
    c.words = w :: w.behind.words := by
  rw [words]
  split <;> simp_all

theorem words_congr {c d : Cursor} (h : c.nextWord? = d.nextWord?) : c.words = d.words := by
  cases hd : d.nextWord? with
  | none => rw [words_of_nextWord?_eq_none hd, words_of_nextWord?_eq_none (h.trans hd)]
  | some w => rw [words_of_nextWord? hd, words_of_nextWord? (h.trans hd)]

end Cursor

/-- A text has no word, or a first one that something other than identifier characters precedes. -/
theorem exists_first_word (cs : List Char) :
    (∀ a ∈ cs, isIdent a = false) ∨
      ∃ gap word rest, cs = gap ++ (word ++ rest) ∧ (∀ a ∈ gap, isIdent a = false) ∧
        word ≠ [] ∧ (∀ a ∈ word, isIdent a = true) ∧ rest.head?.any isIdent = false := by
  have hgap : ∀ a ∈ cs.takeWhile fun a => !isIdent a, isIdent a = false := fun a ha => by
    simpa using List.mem_takeWhile_imp ha
  have hsplit := List.takeWhile_append_dropWhile (p := fun a => !isIdent a) (l := cs)
  cases hrest : cs.dropWhile fun a => !isIdent a with
  | nil =>
    left
    rw [hrest, List.append_nil] at hsplit
    rwa [hsplit] at hgap
  | cons a rest =>
    right
    have ha : isIdent a = true := by
      have := head?_any_dropWhile (fun a => !isIdent a) cs
      rw [hrest] at this
      simpa using this
    refine ⟨_, (a :: rest).takeWhile isIdent, (a :: rest).dropWhile isIdent, ?_, hgap, ?_,
      fun b hb => List.mem_takeWhile_imp hb, head?_any_dropWhile isIdent _⟩
    · rw [List.takeWhile_append_dropWhile, ← hrest, hsplit]
    · simp [ha]

namespace Cursor

/-- The words of a text that is cut are those of the first part, before which `d` stands, and those
behind the cut. -/
theorem exists_words_of_after {c d : Cursor} {moved rest : List Char}
    (hafter : c.after = moved ++ rest) (hafter' : d.after = moved) (hoffset : d.offset = c.offset)
    (hedge : moved = [] ∨ (c.advance moved rest).AtEdge) :
    ∃ ws, c.words = ws ++ (c.advance moved rest).words ∧
      ws.map Word.spot = d.words.map Word.spot := by
  -- Word by word: behind its first word the moved part is shorter.
  induction hlength : moved.length using Nat.strong_induction_on generalizing c d moved with
  | _ n ih =>
    rcases exists_first_word moved with hgap | ⟨gap, word, tail, rfl, hgap, hne, hword, htail⟩
    · have hnone : d.nextWord? = none := nextWord?_eq_none_iff.mpr (by rwa [hafter'])
      refine ⟨[], ?_, by rw [words_of_nextWord?_eq_none hnone]⟩
      rw [List.nil_append, words_congr (nextWord?_advance hafter hgap)]
    · have hjoined : c.after = gap ++ (word ++ (tail ++ rest)) := by simp [hafter]
      have hend : (tail ++ rest).head?.any isIdent = false := by
        cases tail with
        | cons a tail => simpa using htail
        | nil =>
          -- The word ends where the text is cut, so the cut is what keeps it from going on.
          have hlast := (hedge.resolve_left (by simp [hne]))
          rw [AtEdge, head?_before_advance, List.append_nil,
            List.getLast?_append, List.getLast?_eq_some_getLast hne, Option.some_or,
            Option.some_or, Option.any_some, hword _ (List.getLast_mem hne)] at hlast
          simpa using hlast
      have hnext := nextWord?_of_after hjoined hgap hne hword hend
      have hnext' := nextWord?_of_after hafter' hgap hne hword htail
      have hsum : (c.advance (gap ++ word) (tail ++ rest)).advance tail rest =
          c.advance (gap ++ (word ++ tail)) rest := by
        rw [advance_advance, List.append_assoc]
      have hlt : tail.length < n := by
        have := List.length_pos_iff.mpr hne
        simp only [List.length_append] at hlength
        omega
      have hedge' : ((c.advance (gap ++ word) (tail ++ rest)).advance tail rest).AtEdge := by
        rw [hsum]
        exact hedge.resolve_left (by simp [hne])
      obtain ⟨ws, hws, hspots⟩ := ih tail.length hlt (c := c.advance (gap ++ word) (tail ++ rest))
        (d := d.advance (gap ++ word) tail) rfl rfl (by simp [hoffset]) (.inr hedge') rfl
      refine ⟨⟨c.advance gap (word ++ (tail ++ rest)), word,
        c.advance (gap ++ word) (tail ++ rest)⟩ :: ws, ?_, ?_⟩
      · rw [words_of_nextWord? hnext, hws, hsum, List.cons_append]
      · rw [words_of_nextWord? hnext', List.map_cons, List.map_cons, hspots]
        simp [Word.spot, Word.start, hoffset]

theorem exists_words_advance {c : Cursor} {moved rest : List Char}
    (hafter : c.after = moved ++ rest) (hedge : moved = [] ∨ (c.advance moved rest).AtEdge) :
    ∃ ws, c.words = ws ++ (c.advance moved rest).words ∧ ws.map Word.spot = spots c.offset moved :=
  exists_words_of_after (d := ⟨c.offset, [], moved⟩) hafter rfl rfl hedge

theorem map_spot_words (c : Cursor) : c.words.map Word.spot = spots c.offset c.after := by
  obtain ⟨ws, hws, hspots⟩ := exists_words_advance (c := c) (List.append_nil _).symm
    (.inr (atEdge_of_after_eq_nil rfl))
  have hnone : (c.advance c.after []).words = [] :=
    words_of_nextWord?_eq_none (nextWord?_eq_none_iff.mpr (by simp))
  rw [hws, hnone, List.append_nil, hspots]

/-- What is moved over, when whole words are, has the words that do not stand behind it. -/
theorem LeadsWhole.exists_words {c d : Cursor} (h : c.LeadsWhole d) :
    ∃ moved ws, c.after = moved ++ d.after ∧ d = c.advance moved d.after ∧
      c.words = ws ++ d.words ∧ ws.map Word.spot = spots c.offset moved := by
  obtain ⟨moved, hafter, heq⟩ := h.leads
  have hedge : moved = [] ∨ (c.advance moved d.after).AtEdge := by
    rcases h.edge with rfl | hedge
    · left
      simpa using hafter
    · right
      rwa [← heq]
  obtain ⟨ws, hws, hspots⟩ := exists_words_advance hafter hedge
  rw [← heq] at hws
  exact ⟨moved, ws, hafter, heq, hws, hspots⟩

theorem LeadsWhole.exists_spots {c d : Cursor} (h : c.LeadsWhole d) :
    ∃ moved, c.after = moved ++ d.after ∧ d = c.advance moved d.after ∧
      spots c.offset c.after = spots c.offset moved ++ spots d.offset d.after := by
  obtain ⟨moved, ws, hafter, heq, hws, hspots⟩ := h.exists_words
  refine ⟨moved, hafter, heq, ?_⟩
  rw [← map_spot_words, hws, List.map_append, hspots, map_spot_words]

theorem LeadsWhole.sublist_spots {c d : Cursor} (h : c.LeadsWhole d) :
    (spots d.offset d.after).Sublist (spots c.offset c.after) := by
  obtain ⟨moved, -, -, heq⟩ := h.exists_spots
  rw [heq]
  exact List.sublist_append_right _ _

end Cursor

theorem spots_eq_nil {n : Nat} {cs : List Char} (h : ∀ a ∈ cs, isIdent a = false) :
    spots n cs = [] := by
  rw [spots, Cursor.words_of_nextWord?_eq_none (Cursor.nextWord?_eq_none_iff.mpr h), List.map_nil]

theorem spots_eq_cons {gap word rest : List Char} (n : Nat) (hgap : ∀ a ∈ gap, isIdent a = false)
    (hne : word ≠ []) (hword : ∀ a ∈ word, isIdent a = true)
    (hrest : rest.head?.any isIdent = false) :
    spots n (gap ++ (word ++ rest)) =
      (n + width gap, word) :: spots (n + width (gap ++ word)) rest := by
  have hnext := Cursor.nextWord?_of_after (c := ⟨n, [], gap ++ (word ++ rest)⟩) rfl hgap hne hword
    hrest
  rw [spots, Cursor.words_of_nextWord? hnext, List.map_cons, Cursor.map_spot_words]
  rfl

/-- Where a text starts changes nothing but the positions of its words. -/
theorem spots_add (m n : Nat) (cs : List Char) :
    spots (m + n) cs = (spots n cs).map fun s => (m + s.1, s.2) := by
  induction hlength : cs.length using Nat.strong_induction_on generalizing cs n with
  | _ k ih =>
    rcases exists_first_word cs with hgap | ⟨gap, word, rest, rfl, hgap, hne, hword, hrest⟩
    · rw [spots_eq_nil hgap, spots_eq_nil hgap, List.map_nil]
    · have hlt : rest.length < k := by
        have := List.length_pos_iff.mpr hne
        simp only [List.length_append] at hlength
        omega
      rw [spots_eq_cons _ hgap hne hword hrest, spots_eq_cons _ hgap hne hword hrest, List.map_cons,
        Nat.add_assoc, Nat.add_assoc, ih rest.length hlt (n + width (gap ++ word)) rest rfl]

theorem map_snd_spots (n : Nat) (cs : List Char) :
    (spots n cs).map Prod.snd = (words cs).map (·.text) := by
  rw [← Nat.add_zero n, spots_add, List.map_map, words, spots, List.map_map]
  rfl

/-- A text that is cut where no word reaches over the cut has the words of the first part and, behind
them, those of the second. -/
theorem spots_append {a b : List Char}
    (h : a.getLast?.any isIdent = false ∨ b.head?.any isIdent = false) (n : Nat) :
    spots n (a ++ b) = spots n a ++ spots (n + width a) b := by
  let c : Cursor := ⟨n, [], a ++ b⟩
  have hedge : (c.advance a b).AtEdge := h.imp_left fun h => by
    rw [Cursor.head?_before_advance]
    simpa [c] using h
  obtain ⟨ws, hws, hspots⟩ := Cursor.exists_words_advance (c := c) rfl (.inr hedge)
  rw [spots, hws, List.map_append, hspots, Cursor.map_spot_words]
  rfl

theorem map_text_words_append {a b : List Char}
    (h : a.getLast?.any isIdent = false ∨ b.head?.any isIdent = false) :
    (words (a ++ b)).map (·.text) = (words a).map (·.text) ++ (words b).map (·.text) := by
  rw [← map_snd_spots 0, spots_append h, List.map_append, map_snd_spots, map_snd_spots]

theorem words_eq_nil {cs : List Char} (h : ∀ a ∈ cs, isIdent a = false) : words cs = [] :=
  Cursor.words_of_nextWord?_eq_none (Cursor.nextWord?_eq_none_iff.mpr h)

theorem map_text_words_of_word {cs : List Char} (hne : cs ≠ []) (h : ∀ a ∈ cs, isIdent a = true) :
    (words cs).map (·.text) = [cs] := by
  have hspots := @spots_eq_cons [] cs [] 0 (List.forall_mem_nil _) hne h rfl
  rw [List.nil_append, List.append_nil, spots_eq_nil (List.forall_mem_nil _)] at hspots
  rw [← map_snd_spots 0, hspots]
  rfl

theorem spots_pairwise (n : Nat) (cs : List Char) :
    (spots n cs).Pairwise (fun s t => s.1 < t.1) ∧ ∀ s ∈ spots n cs, n ≤ s.1 := by
  induction hlength : cs.length using Nat.strong_induction_on generalizing cs n with
  | _ k ih =>
    rcases exists_first_word cs with hgap | ⟨gap, word, rest, rfl, hgap, hne, hword, hrest⟩
    · simp [spots_eq_nil hgap]
    · have hpos := List.length_pos_iff.mpr hne
      have hlt : rest.length < k := by
        simp only [List.length_append] at hlength
        omega
      obtain ⟨hpairwise, hle⟩ := ih rest.length hlt (n + width (gap ++ word)) rest rfl
      have hword := width_pos hne
      rw [spots_eq_cons _ hgap hne ‹_› hrest, List.pairwise_cons, List.forall_mem_cons]
      rw [width_append] at hle hpairwise
      rw [width_append]
      refine ⟨⟨fun t ht => ?_, hpairwise⟩, Nat.le_add_right .., fun t ht => ?_⟩
      · have := hle t ht
        simp only
        omega
      · have := hle t ht
        omega

theorem nodup_spots (n : Nat) (cs : List Char) : (spots n cs).Nodup :=
  (spots_pairwise n cs).1.imp fun hlt heq => absurd (congrArg Prod.fst heq) (Nat.ne_of_lt hlt)

theorem countKeywords_eq (n : Nat) (cs : List Char) (keywords : List String)
    (caseSensitive : Bool) :
    countKeywords cs keywords caseSensitive =
      (spots n cs).countP fun s =>
        keywords.any fun k =>
          if caseSensitive then s.2 == k.toList else sameLatin s.2 k.toList := by
  rw [← Nat.add_zero n, spots_add, List.countP_map, countKeywords, words, spots, List.countP_map]
  rfl

theorem countKeywords_append {a b : List Char}
    (h : a.getLast?.any isIdent = false ∨ b.head?.any isIdent = false) (keywords : List String)
    (caseSensitive : Bool) :
    countKeywords (a ++ b) keywords caseSensitive =
      countKeywords a keywords caseSensitive + countKeywords b keywords caseSensitive := by
  rw [countKeywords_eq 0, spots_append h, List.countP_append, ← countKeywords_eq,
    ← countKeywords_eq]

end MigrationAudit.Text
