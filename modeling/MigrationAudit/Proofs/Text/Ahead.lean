import MigrationAudit.Proofs.Text.Words

/-!
# Cursors ahead of one

All places that a cursor leads to lie on one line: of two of them, one leads to the other. A word
ahead is met by every scan that has not passed its start, also by one that starts inside a word.
-/

namespace MigrationAudit.Text

/-- A word stands between its cursors, and no identifier character follows it. -/
structure Word.IsWhole (w : Word) : Prop where
  after_eq : w.first.after = w.text ++ w.behind.after
  behind_eq : w.behind = w.first.advance w.text w.behind.after
  ne_nil : w.text ≠ []
  isIdent : ∀ a ∈ w.text, isIdent a = true
  head? : w.behind.after.head?.any MigrationAudit.Text.isIdent = false

namespace Cursor

variable {c d e : Cursor}

theorem isWhole_of_nextWord? {w : Word} (h : c.nextWord? = some w) : w.IsWhole := by
  obtain ⟨a, rest, hfirst, ha⟩ := ident_of_nextWord? h
  simp only [nextWord?] at h
  split at h
  · simp at h
  · obtain rfl := Option.some.inj h
    refine ⟨List.takeWhile_append_dropWhile.symm, rfl, ?_, fun b hb => List.mem_takeWhile_imp hb,
      head?_any_dropWhile isIdent _⟩
    have hcons : (c.skipWhile fun b => !isIdent b).after = a :: rest := hfirst
    simp [wordHere, hcons, ha]

theorem isWhole_of_mem_words {w : Word} (h : w ∈ c.words) : w.IsWhole := by
  fun_induction words c with
  | case1 => simp at h
  | case2 c v hv ih =>
    rcases List.mem_cons.mp h with rfl | h
    · exact isWhole_of_nextWord? hv
    · exact ih h

theorem Leads.of_offset_le (hd : c.Leads d) (he : c.Leads e) (hle : d.offset ≤ e.offset) :
    d.Leads e := by
  obtain ⟨m, hm, hd⟩ := hd
  obtain ⟨n, hn, he⟩ := he
  have hwidth : width m ≤ width n := by
    rw [hd, he] at hle
    simpa using hle
  obtain ⟨k, rfl⟩ := prefix_of_width_le (hm.symm.trans hn) hwidth
  have hafter : d.after = k ++ e.after := by
    rw [hm, List.append_assoc, List.append_cancel_left_eq] at hn
    exact hn
  refine ⟨k, hafter, ?_⟩
  rw [he, hd, advance_advance, after_advance]

theorem Leads.eq_of_offset_eq (hd : c.Leads d) (he : c.Leads e) (h : d.offset = e.offset) :
    d = e := by
  obtain ⟨k, hafter, he⟩ := hd.of_offset_le he h.le
  have hk : k = [] := by
    by_contra hne
    have hpos := width_pos hne
    rw [he, offset_advance] at h
    omega
  rw [he, ← advance_nil d, hafter, hk]
  rfl

/-- Between two words the next word stays the same. -/
theorem nextWord?_of_leads {w : Word} (hlead : c.Leads d) (hw : c.nextWord? = some w)
    (hle : d.offset ≤ w.start) : d.nextWord? = some w := by
  obtain ⟨m, hm, hd⟩ := hlead
  have hgap : ∀ a ∈ m, isIdent a = false := by
    simp only [nextWord?] at hw
    split at hw
    · simp at hw
    · obtain rfl := Option.some.inj hw
      have hwidth : width m ≤ width (c.after.takeWhile fun a => !isIdent a) := by
        rw [hd] at hle
        simpa [Word.start, wordHere, skipWhile] using hle
      have hsplit := List.takeWhile_append_dropWhile (p := fun a => !isIdent a) (l := c.after)
      have hfront := prefix_of_width_le (hm.symm.trans hsplit.symm) hwidth
      exact fun a ha => by simpa using List.mem_takeWhile_imp (hfront.mem ha)
  rw [hd, nextWord?_advance hm hgap, hw]

/-- Inside a word there is the rest of it, and the same words follow. -/
theorem exists_nextWord?_of_leads {w : Word} (hlead : c.Leads d) (hw : c.nextWord? = some w)
    (hlt : w.start < d.offset) (hlt' : d.offset < w.stop) :
    ∃ v, d.nextWord? = some v ∧ v.behind = w.behind := by
  obtain ⟨hfirst, hbehind⟩ := leads_nextWord? hw
  obtain ⟨k, hk, hd⟩ := hfirst.of_offset_le hlead hlt.le
  obtain ⟨l, hl, hb⟩ := hlead.of_offset_le (hfirst.trans hbehind) hlt'.le
  have hwhole := isWhole_of_nextWord? hw
  have hrun : w.text = k ++ l := by
    have hsplit : w.text ++ w.behind.after = (k ++ l) ++ w.behind.after := by
      rw [← hwhole.after_eq, hk, List.append_assoc, ← hl]
    exact List.append_cancel_right hsplit
  have hident : ∀ a ∈ l, isIdent a = true := fun a ha =>
    hwhole.isIdent a (hrun ▸ List.mem_append_right k ha)
  have hne : l ≠ [] := by
    rintro rfl
    have hstop : w.behind.offset = d.offset := (congrArg offset hb).trans (by simp [width])
    exact absurd hlt' (by simp [Word.stop, hstop])
  have hafter : d.after = [] ++ (l ++ w.behind.after) := hl
  have hnext :=
    nextWord?_of_after (c := d) hafter (List.forall_mem_nil _) hne hident hwhole.head?
  exact ⟨_, hnext, hb.symm⟩

theorem mem_words_of_leads {v : Word} (h : v ∈ c.words) (hlead : c.Leads d)
    (hle : d.offset ≤ v.start) : v ∈ d.words := by
  fun_induction words c with
  | case1 => simp at h
  | case2 c w hw ih =>
    obtain ⟨hfirst, hbehind⟩ := leads_nextWord? hw
    by_cases hstart : d.offset ≤ w.start
    · rw [words_of_nextWord? (nextWord?_of_leads hlead hw hstart)]
      exact h
    · rw [Nat.not_le] at hstart
      rcases List.mem_cons.mp h with rfl | h
      · exact absurd hle (Nat.not_le.mpr hstart)
      · by_cases hstop : w.stop ≤ d.offset
        · exact ih h ((hfirst.trans hbehind).of_offset_le hlead hstop)
        · obtain ⟨u, hu, heq⟩ := exists_nextWord?_of_leads hlead hw hstart (Nat.not_le.mp hstop)
          rw [words_of_nextWord? hu, heq]
          exact List.mem_cons_of_mem u h

end Cursor

end MigrationAudit.Text
