import MigrationAudit.Proofs.Text.Ahead
import MigrationAudit.Proofs.Text.Blocks
import MigrationAudit.Proofs.Text.Pieces

/-!
# Words where they stand

The words of a text are the runs of identifier characters that nothing around them continues, from
front to back. The word before such a run is the last run of what stands in front of it.
-/

namespace MigrationAudit.Text

variable {cs before word after gap : List Char} {a : Char}

/-- A word stands whole in a text, between what is before it and what is behind it. -/
structure StandsWhole (cs before word after : List Char) : Prop where
  text_eq : cs = before ++ (word ++ after)
  ne_nil : word ≠ []
  isIdent : ∀ a ∈ word, isIdent a = true
  before_edge : before.getLast?.any MigrationAudit.Text.isIdent = false
  after_edge : after.head?.any MigrationAudit.Text.isIdent = false

/-- A text ends with a character, when white space behind it does not count. -/
def ClosesWith (cs : List Char) (a : Char) : Prop :=
  ∃ front gap, cs = front ++ a :: gap ∧ ∀ b ∈ gap, isBlank b = true

/-- The last word of a text. -/
def HasLastWord (cs word : List Char) : Prop :=
  ∃ front gap, StandsWhole cs front word gap ∧ ∀ a ∈ gap, isIdent a = false

/-! ## Characters around white space -/

namespace Cursor

variable {c : Cursor}

theorem lastSignificant?_eq_some_iff :
    c.lastSignificant? = some a ↔ isBlank a = false ∧ ClosesWith c.before.reverse a := by
  rw [lastSignificant?, List.find?_eq_some_iff_append, Bool.not_eq_true']
  refine and_congr_right fun _ => ?_
  constructor
  · rintro ⟨gap, front, hbefore, hgap⟩
    refine ⟨front.reverse, gap.reverse, by simp [hbefore], fun b hb => ?_⟩
    simpa using hgap b (List.mem_reverse.mp hb)
  · rintro ⟨front, gap, hbefore, hgap⟩
    rw [List.reverse_eq_iff] at hbefore
    refine ⟨gap.reverse, front.reverse, by simp [hbefore], fun b hb => ?_⟩
    simpa using hgap b (List.mem_reverse.mp hb)

theorem lastSignificant?_eq_none_iff :
    c.lastSignificant? = none ↔ ∀ a ∈ c.before.reverse, isBlank a = true := by
  simp [lastSignificant?]

/-! ## Last words -/

/-- The last word before the cursor. -/
def lastWord? (c : Cursor) : Option (List Char) :=
  let run := (c.before.dropWhile fun a => !isIdent a).takeWhile isIdent
  if run.isEmpty then none else some run.reverse

theorem lastWord?_of_before {seen : List Char} (hbefore : c.before = gap ++ (word ++ seen))
    (hgap : ∀ a ∈ gap, isIdent a = false) (hne : word ≠ []) (hword : ∀ a ∈ word, isIdent a = true)
    (hseen : seen.head?.any isIdent = false) : c.lastWord? = some word.reverse := by
  have hhead : (word ++ seen).head?.any (fun a => !isIdent a) = false := by
    obtain ⟨a, word, rfl⟩ := List.exists_cons_of_ne_nil hne
    simp [hword a List.mem_cons_self]
  have hdrop : c.before.dropWhile (fun a => !isIdent a) = word ++ seen := by
    rw [hbefore, dropWhile_append_of_head? (by simpa using hgap) hhead]
  rw [lastWord?, hdrop, takeWhile_append_of_head? hword hseen]
  simp [hne]

theorem hasLastWord_of_before {seen : List Char} (hbefore : cs.reverse = gap ++ (word ++ seen))
    (hgap : ∀ a ∈ gap, isIdent a = false) (hne : word ≠ []) (hword : ∀ a ∈ word, isIdent a = true)
    (hseen : seen.head?.any isIdent = false) : HasLastWord cs word.reverse := by
  have hgap' : ∀ a ∈ gap.reverse, isIdent a = false := by simpa using hgap
  have hhead : gap.reverse.head?.any isIdent = false := by
    cases hrev : gap.reverse with
    | nil => rfl
    | cons a rest => exact hgap' a (hrev ▸ List.mem_cons_self)
  refine ⟨seen.reverse, gap.reverse, ⟨?_, ?_, ?_, ?_, hhead⟩, hgap'⟩
  · rw [← List.reverse_reverse cs, hbefore]
    simp
  · simpa using hne
  · simpa using hword
  · simpa using hseen

theorem lastWord?_eq_some_iff : c.lastWord? = some word ↔ HasLastWord c.before.reverse word := by
  constructor
  · intro h
    simp only [lastWord?, List.isEmpty_iff] at h
    split at h
    · cases h
    · next hne =>
      obtain rfl := Option.some.inj h
      have hbefore : c.before.reverse.reverse = c.before.takeWhile (fun a => !isIdent a) ++
          ((c.before.dropWhile fun a => !isIdent a).takeWhile isIdent ++
            (c.before.dropWhile fun a => !isIdent a).dropWhile isIdent) := by
        rw [List.takeWhile_append_dropWhile, List.takeWhile_append_dropWhile, List.reverse_reverse]
      refine hasLastWord_of_before hbefore (fun a ha => ?_) hne
        (fun a ha => List.mem_takeWhile_imp ha) (head?_any_dropWhile isIdent _)
      simpa using List.mem_takeWhile_imp ha
  · rintro ⟨front, gap, hstands, hgap⟩
    have hbefore : c.before = gap.reverse ++ (word.reverse ++ front.reverse) := by
      rw [← List.reverse_reverse c.before, hstands.text_eq]
      simp
    have h := lastWord?_of_before hbefore (by simpa using hgap) (by simpa using hstands.ne_nil)
      (by simpa using hstands.isIdent) (by simpa using hstands.before_edge)
    rwa [List.reverse_reverse] at h

theorem lastWord?_advance_gap (hgap : ∀ a ∈ gap, isIdent a = false) (rest : List Char) :
    (c.advance gap rest).lastWord? = c.lastWord? := by
  rw [lastWord?, lastWord?, advance, List.reverseAux_eq, List.dropWhile_append_of_pos]
  simpa using hgap

theorem lastWord?_advance_word (hedge : c.before.head?.any isIdent = false) (hne : word ≠ [])
    (hword : ∀ a ∈ word, isIdent a = true) (rest : List Char) :
    (c.advance word rest).lastWord? = some word := by
  have hbefore : (c.advance word rest).before = [] ++ (word.reverse ++ c.before) := by
    rw [advance, List.reverseAux_eq, List.nil_append]
  have h := lastWord?_of_before hbefore (List.forall_mem_nil _) (by simpa using hne)
    (by simpa using hword) hedge
  rwa [List.reverse_reverse] at h

theorem first_of_nextWord? {w : Word} (h : c.nextWord? = some w) :
    w.first = c.skipWhile fun a => !isIdent a := by
  simp only [nextWord?] at h
  split at h
  · cases h
  · obtain rfl := Option.some.inj h
    rfl

end Cursor

/-- Only white space is behind the last word of a text whose last character belongs to a word. -/
theorem ClosesWith.forall_isBlank (h : ClosesWith cs a) (ha : isIdent a = true)
    (hcs : cs = before ++ (word ++ gap)) (hgap : ∀ b ∈ gap, isIdent b = false) :
    ∀ b ∈ gap, isBlank b = true := by
  obtain ⟨front, gap', rfl, hgap'⟩ := h
  intro b hb
  rw [← List.append_assoc, List.append_eq_append_iff] at hcs
  rcases hcs with ⟨rest, -, hrest⟩ | ⟨rest, -, rfl⟩
  · have hmem : b ∈ a :: gap' := hrest ▸ List.mem_append_right rest hb
    rcases List.mem_cons.mp hmem with rfl | hmem
    · simp [hgap b hb] at ha
    · exact hgap' b hmem
  · simp [hgap a (by simp)] at ha

theorem StandsWhole.exists_closesWith (h : StandsWhole cs before word gap)
    (hgap : ∀ a ∈ gap, isBlank a = true) : ∃ a, Text.isIdent a = true ∧ ClosesWith cs a := by
  obtain ⟨init, a, hword⟩ := (List.eq_nil_or_concat word).resolve_left h.ne_nil
  refine ⟨a, h.isIdent a (by simp [hword]), before ++ init, gap, ?_, hgap⟩
  simp [h.text_eq, hword]

/-! ## Words around white space -/

theorem leadingWord?_eq_some_iff :
    leadingWord? cs = some (word, after) ↔
      ∃ gap, StandsWhole cs gap word after ∧ ∀ a ∈ gap, isBlank a = true := by
  constructor
  · intro h
    simp only [leadingWord?] at h
    split at h
    · cases h
    · next hne =>
      obtain ⟨rfl, rfl⟩ := Prod.mk.inj (Option.some.inj h)
      refine ⟨cs.takeWhile isBlank, ⟨?_, hne, fun a ha => List.mem_takeWhile_imp ha, ?_,
        head?_any_dropWhile isIdent _⟩, fun a ha => List.mem_takeWhile_imp ha⟩
      · rw [List.takeWhile_append_dropWhile, trimStart, List.takeWhile_append_dropWhile]
      · rw [Option.any_eq_false]
        intro a ha
        exact isIdent_of_isBlank a (List.mem_takeWhile_imp (List.mem_of_getLast? ha))
  · rintro ⟨gap, ⟨rfl, hne, hword, -, hafter⟩, hgap⟩
    have htrim : trimStart (gap ++ (word ++ after)) = trimStart (word ++ after) :=
      List.dropWhile_append_of_pos hgap
    rw [← leadingWord?_trimStart, htrim, leadingWord?_trimStart,
      leadingWord?_append hne hword hafter]

/-! ## Words of a text -/

theorem Word.IsWhole.head?_before {w : Word} (h : w.IsWhole) (hedge : w.first.AtEdge) :
    w.first.before.head?.any MigrationAudit.Text.isIdent = false := by
  refine hedge.resolve_right fun hafter => ?_
  obtain ⟨a, word, hword⟩ := List.exists_cons_of_ne_nil h.ne_nil
  rw [h.after_eq, hword] at hafter
  have ha := h.isIdent a (hword ▸ List.mem_cons_self)
  simp [ha] at hafter

theorem standsWhole_of_mem_words {w : Word} (h : w ∈ words cs) :
    StandsWhole cs w.first.before.reverse w.text w.behind.after := by
  obtain ⟨hfirst, hbehind⟩ := Cursor.leadsWhole_of_mem_words h
  have hwhole := Cursor.isWhole_of_mem_words h
  have htext := hfirst.leads.text_eq
  rw [Cursor.text, hwhole.after_eq] at htext
  refine ⟨htext.symm, hwhole.ne_nil, hwhole.isIdent, ?_, hwhole.head?⟩
  rw [List.getLast?_reverse]
  rcases hfirst.edge with hstart | hedge
  · rw [hstart]
    rfl
  · exact hwhole.head?_before hedge

theorem start_of_mem_words {w : Word} (h : w ∈ words cs) :
    w.start = width w.first.before.reverse := by
  obtain ⟨hfirst, -⟩ := Cursor.leadsWhole_of_mem_words h
  rw [width_reverse]
  exact ((Cursor.standsIn_ofText cs).of_leads hfirst.leads).offset_eq

theorem StandsWhole.exists_mem_words (h : StandsWhole cs before word after) :
    ∃ w ∈ words cs, w.first.before.reverse = before ∧ w.text = word ∧ w.behind.after = after := by
  obtain ⟨rfl, hne, hword, hbefore, hafter⟩ := h
  let c := (Cursor.ofText (before ++ (word ++ after))).advance before (word ++ after)
  have hedge : c.AtEdge := by
    left
    rw [Cursor.head?_before_advance]
    simpa [Cursor.ofText] using hbefore
  obtain ⟨ws, hws, -⟩ := Cursor.exists_words_advance (c := Cursor.ofText _) rfl (.inr hedge)
  have hahead : c.after = [] ++ (word ++ after) := rfl
  have hnext := Cursor.nextWord?_of_after hahead (List.forall_mem_nil _) hne hword hafter
  refine ⟨⟨c.advance [] (word ++ after), word, c.advance ([] ++ word) after⟩, ?_, ?_, rfl, rfl⟩
  · rw [words, hws, Cursor.words_of_nextWord? hnext]
    exact List.mem_append_right _ List.mem_cons_self
  · simp [c, Cursor.advance, Cursor.ofText]

/-! ## Words with the words before them -/

/-- The words of a text, each with the word before it. -/
def precededWords (cs : List Char) : List (Option Word × Word) :=
  (none :: (words cs).map some).zip (words cs)

/-- A pass over the words that carries the word it has met last has the last word before the next
one in hand. -/
theorem lastWord?_of_mem_zip {c : Cursor} (hedge : c.AtEdge) {previous : Option Word}
    (h : previous.map (·.text) = c.lastWord?) {p : Option Word × Word}
    (hp : p ∈ (previous :: c.words.map some).zip c.words) :
    p.1.map (·.text) = p.2.first.lastWord? := by
  fun_induction Cursor.words c generalizing previous with
  | case1 => simp at hp
  | case2 c v hv ih =>
    obtain ⟨hfirst, hbehind⟩ := Cursor.leadsWhole_nextWord? hv
    have hwhole := Cursor.isWhole_of_nextWord? hv
    have hedge' : v.first.before.head?.any isIdent = false := by
      refine hwhole.head?_before ?_
      rcases hfirst.edge with heq | hedge'
      · rwa [heq]
      · exact hedge'
    rw [List.map_cons, List.zip_cons_cons, List.mem_cons] at hp
    rcases hp with rfl | hp
    · -- between the cursor and the word there are no characters of a word
      rw [h, Cursor.first_of_nextWord? hv]
      refine (Cursor.lastWord?_advance_gap (fun a ha => ?_) _).symm
      simpa using List.mem_takeWhile_imp ha
    · refine ih (.inr hwhole.head?) ?_ hp
      rw [hwhole.behind_eq, Cursor.lastWord?_advance_word hedge' hwhole.ne_nil hwhole.isIdent]
      rfl

theorem lastWord?_of_mem_precededWords {p : Option Word × Word} (h : p ∈ precededWords cs) :
    p.1.map (·.text) = p.2.first.lastWord? :=
  lastWord?_of_mem_zip (c := Cursor.ofText cs) (.inl rfl) rfl h

end MigrationAudit.Text
