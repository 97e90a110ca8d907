import MigrationAudit.Proofs.Text.Pieces

/-!
# Fields of a text

The runs of a text do not change with what lies between them and around them. So a text with single
spaces between its fields has the same fields, and a text is its first field with white space and the
others behind it.
-/

namespace MigrationAudit.Text

variable {p : Char → Bool} {cs gap run : List Char} {runs : List (List Char)}

theorem runsOf_append_of_neg (hgap : ∀ c ∈ gap, p c = false) (cs : List Char) :
    runsOf p (gap ++ cs) = runsOf p cs ∧ runsOf p (cs ++ gap) = runsOf p cs := by
  induction gap generalizing cs with
  | nil => simp
  | cons c gap ih =>
    obtain ⟨hc, hgap⟩ := List.forall_mem_cons.mp hgap
    constructor
    · rw [List.cons_append, runsOf.eq_def]
      simp only [hc, Bool.false_eq_true, if_false]
      exact (ih hgap cs).1
    · rw [List.append_cons, (ih hgap (cs ++ [c])).2, runsOf_concat hc]

/-- The first run of a text stands behind characters that are in no run. -/
theorem exists_of_runsOf_cons (h : runsOf p cs = run :: runs) :
    ∃ gap rest, cs = gap ++ (run ++ rest) ∧ (∀ a ∈ gap, p a = false) ∧ runsOf p rest = runs := by
  induction cs generalizing run runs with
  | nil => simp [runsOf] at h
  | cons c cs ih =>
    rw [runsOf.eq_def] at h
    by_cases hc : p c = true
    · simp only [hc, if_true] at h
      cases cs with
      | nil =>
        obtain ⟨rfl, rfl⟩ : [c] = run ∧ [] = runs := by simpa [runsOf] using h
        exact ⟨[], [], rfl, by simp, rfl⟩
      | cons d cs =>
        cases hruns : runsOf p (d :: cs) with
        | nil =>
          obtain ⟨rfl, rfl⟩ : [c] = run ∧ [] = runs := by simpa [hruns] using h
          exact ⟨[], d :: cs, rfl, by simp, hruns⟩
        | cons next more =>
          obtain ⟨gap, rest, hcs, hgap, hrest⟩ := ih hruns
          simp only [hruns] at h
          by_cases hd : p d = true
          · obtain ⟨rfl, rfl⟩ : c :: next = run ∧ more = runs := by simpa [hd] using h
            -- the run goes on right behind `c`
            obtain rfl : gap = [] := by
              cases gap with
              | nil => rfl
              | cons e gap =>
                obtain ⟨rfl, -⟩ := List.cons_eq_cons.mp hcs
                simp [hgap d List.mem_cons_self] at hd
            exact ⟨[], rest, by rw [hcs]; rfl, by simp, hrest⟩
          · obtain ⟨rfl, rfl⟩ : [c] = run ∧ next :: more = runs := by simpa [hd] using h
            exact ⟨[], d :: cs, rfl, by simp, hruns⟩
    · simp only [hc, Bool.false_eq_true, if_false] at h
      obtain ⟨gap, rest, rfl, hgap, hrest⟩ := ih h
      exact ⟨c :: gap, rest, rfl, List.forall_mem_cons.mpr ⟨by simpa using hc, hgap⟩, hrest⟩

theorem forall_of_runsOf_eq_nil (h : runsOf p cs = []) : ∀ a ∈ cs, p a = false := by
  induction cs with
  | nil => simp
  | cons c cs ih =>
    rw [runsOf.eq_def] at h
    by_cases hc : p c = true
    · simp only [hc, if_true] at h
      grind
    · simp only [hc, Bool.false_eq_true, if_false] at h
      exact List.forall_mem_cons.mpr ⟨by simpa using hc, ih h⟩

theorem fields_trim (cs : List Char) : fields (trim cs) = fields cs := by
  rcases exists_trimmed cs with hblank | ⟨lead, text, trail, rfl, hlead, htrail, hstart, hend⟩
  · have hnone := (runsOf_append_of_neg (p := fun c => !isBlank c) (by simpa using hblank) []).1
    rw [List.append_nil] at hnone
    rw [trim_eq_nil hblank, fields, fields, hnone]
  · rw [(trim_append hlead htrail hstart hend).1, fields, fields,
      (runsOf_append_of_neg (by simpa using hlead) _).1,
      (runsOf_append_of_neg (by simpa using htrail) _).2]

theorem fields_intercalate (h : ∀ run ∈ runs, run ≠ [] ∧ ∀ c ∈ run, isBlank c = false) :
    fields ([' '].intercalate runs) = runs := by
  induction runs with
  | nil => rfl
  | cons run runs ih =>
    obtain ⟨⟨hne, hrun⟩, hruns⟩ := List.forall_mem_cons.mp h
    have hrun : ∀ c ∈ run, (!isBlank c) = true := by simpa using hrun
    cases runs with
    | nil =>
      have hself : fields (run ++ []) = [run] := runsOf_append hne hrun rfl
      simpa using hself
    | cons next runs =>
      have hspace : isBlank ' ' = true := rfl
      rw [intercalate_cons_cons, fields, runsOf_append hne hrun (by simp [hspace]),
        (runsOf_append_of_neg (by simp [hspace]) _).1, ← fields, ih hruns]

theorem fields_squash (cs : List Char) : fields (squash cs) = fields cs :=
  fields_intercalate (mem_fields cs)

theorem exists_of_runsOf_head (hhead : cs.head?.any p = true) (h : runsOf p cs = run :: runs) :
    ∃ rest, cs = run ++ rest ∧ rest.head?.any p = false ∧ runsOf p rest = runs := by
  have hne : cs.takeWhile p ≠ [] := by
    cases cs with
    | nil => simp at hhead
    | cons c cs => simp [show p c = true from hhead]
  have hsplit := List.takeWhile_append_dropWhile (p := p) (l := cs)
  have hruns := runsOf_append hne (fun c hc => List.mem_takeWhile_imp hc)
    (head?_any_dropWhile p cs)
  rw [hsplit, h] at hruns
  obtain ⟨rfl, rfl⟩ := List.cons_eq_cons.mp hruns
  exact ⟨cs.dropWhile p, hsplit.symm, head?_any_dropWhile p cs, rfl⟩

/-- The first field stands at the start of the trimmed text. White space and another field follow it,
or nothing does. -/
theorem exists_trim_of_fields (h : fields cs = run :: runs) :
    ∃ rest, trim cs = run ++ rest ∧ (∀ c ∈ rest.head?, isBlank c = true) ∧
      (runs = [] ∧ rest = [] ∨ runs ≠ [] ∧ 2 ≤ width rest) := by
  rw [← fields_trim] at h
  rcases exists_trimmed cs with hblank | ⟨lead, text, trail, rfl, hlead, htrail, hstart, hend⟩
  · rw [trim_eq_nil hblank] at h
    cases h
  · rw [(trim_append hlead htrail hstart hend).1] at h ⊢
    obtain ⟨rest, rfl, hrest, hruns⟩ := exists_of_runsOf_head hstart h
    refine ⟨rest, rfl, ?_, ?_⟩
    · intro c hc
      simpa [Option.mem_def.mp hc] using hrest
    · cases rest with
      | nil => exact .inl ⟨hruns.symm, rfl⟩
      | cons b rest =>
        right
        have hb : isBlank b = true := by simpa using hrest
        -- the text ends visibly, so something visible stands behind the first character of the rest
        have hvisible : isBlank (rest.getLast?.getD b) = false := by
          simpa [StartsVisibly, List.head?_reverse, List.getLast?_append] using hend
        constructor
        · rintro rfl
          have hmem : rest.getLast?.getD b ∈ b :: rest := List.mem_of_getLast? List.getLast?_cons
          have hnone := forall_of_runsOf_eq_nil hruns _ hmem
          simp [hvisible] at hnone
        · have hne : rest ≠ [] := by
            rintro rfl
            simp [hb] at hvisible
          have hsize := b.utf8Size_pos
          have hpos := width_pos hne
          rw [width]
          omega

end MigrationAudit.Text
