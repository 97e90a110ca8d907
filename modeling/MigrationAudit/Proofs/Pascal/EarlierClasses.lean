import MigrationAudit.Pascal.TypeDecl
import MigrationAudit.Proofs.Lists
import MigrationAudit.Proofs.Source.Continuation
import MigrationAudit.Proofs.Text.Words

/-!
# Earlier classes

A text that ends with a semicolon and in which every class is closed may go on in any way: no reader
of a class looks past the semicolon, so the classes in front of it are found as they are, and only
what follows can be left open.
-/

namespace MigrationAudit.Pascal

open Text Source

variable {c : Cursor} {more : List Char}

theorem isIdent_semicolon : isIdent ';' = false := by decide

/-- Basic Latin letters are characters of names in both ways of reading names. -/
theorem isNameChar_of_ascii {x : Char} (hascii : x.toNat < 128) :
    isNameChar x = isIdent x ∧ (isIdentStart x = true → isFoldedNameStart x = true) := by
  have hall : ∀ n < 128, isNameChar (Char.ofNat n) = isIdent (Char.ofNat n) ∧
      (isIdentStart (Char.ofNat n) = true → isFoldedNameStart (Char.ofNat n) = true) := by
    decide +kernel
  rw [← Char.ofNat_toNat x]
  exact hall _ hascii

theorem isNameChar_of_isBlank {x : Char} (h : isBlank x = true) : isNameChar x = false := by
  have hall : ∀ n ∈ blankCodes, isNameChar (Char.ofNat n) = false := by decide +kernel
  rw [← Char.ofNat_toNat x]
  exact hall _ (toNat_mem_blankCodes h)

theorem isNameChar_semicolon : isNameChar ';' = false := (isNameChar_of_ascii (by decide)).1

theorem isBlank_semicolon : isBlank ';' = false := rfl

theorem endsWith_skipBlank (h : c.EndsWith ';') : c.skipBlank.EndsWith ';' :=
  h.skipWhile isBlank_semicolon

theorem skipBlank_extend (h : c.EndsWith ';') (more : List Char) :
    (c.extend more).skipBlank = c.skipBlank.extend more :=
  Cursor.skipWhile_extend (endsWith_skipBlank h).ne_nil more

/-! ## Introducers -/

/-- A reader that reads the same when a text that ends with a semicolon goes on, and does not read
the semicolon. -/
structure StopsBeforeEnd (read? : Cursor → Option Cursor) : Prop where
  leads : ∀ c d : Cursor, read? c = some d → c.Leads d
  extend : ∀ c : Cursor, c.EndsWith ';' → ∀ more,
    read? (c.extend more) = (read? c).map (·.extend more)
  endsWith : ∀ c d : Cursor, c.EndsWith ';' → read? c = some d → d.EndsWith ';'

theorem stopsBeforeEnd_keyword? (keywords : List String) : StopsBeforeEnd (keyword? keywords) := by
  constructor
  case leads =>
    intro c d hread
    simp only [keyword?] at hread
    split at hread
    · obtain rfl := Option.some.inj hread
      exact Cursor.leads_skipWhile ..
    · simp at hread
  case extend =>
    intro c h more
    have hskip := (h.skipWhile isNameChar_semicolon).ne_nil
    obtain ⟨htake, -⟩ := splitWhile_append hskip more
    simp only [keyword?, Cursor.after_extend, htake, Cursor.skipWhile_extend hskip]
    split <;> rfl
  case endsWith =>
    intro c d h hread
    simp only [keyword?] at hread
    split at hread
    · obtain rfl := Option.some.inj hread
      exact h.skipWhile isNameChar_semicolon
    · simp at hread

theorem stopsBeforeEnd_packedKeyword? (keywords : List String) :
    StopsBeforeEnd (packedKeyword? keywords) := by
  have hkeyword := stopsBeforeEnd_keyword? keywords
  have hpacked := stopsBeforeEnd_keyword? ["packed"]
  constructor
  case leads =>
    intro c d hread
    simp only [packedKeyword?] at hread
    split at hread
    · next d hd =>
      obtain rfl := Option.some.inj hread
      exact hkeyword.leads c d hd
    · split at hread
      · next e he =>
        split at hread
        · have hskip := (hpacked.leads c e he).trans (Cursor.leads_skipWhile isBlank e)
          exact hskip.trans (hkeyword.leads _ d hread)
        · simp at hread
      · simp at hread
  case extend =>
    intro c h more
    simp only [packedKeyword?, hkeyword.extend c h, hpacked.extend c h]
    cases keyword? keywords c with
    | some d => rfl
    | none =>
      cases hd : keyword? ["packed"] c with
      | none => rfl
      | some d =>
        have hends := hpacked.endsWith c d h hd
        simp only [Option.map_some, Option.map_none, hends.head?_extend, skipBlank_extend hends,
          hkeyword.extend _ (endsWith_skipBlank hends)]
        split <;> rfl
  case endsWith =>
    intro c d h hread
    simp only [packedKeyword?] at hread
    split at hread
    · next d hd =>
      obtain rfl := Option.some.inj hread
      exact hkeyword.endsWith c d h hd
    · split at hread
      · next e he =>
        split at hread
        · exact hkeyword.endsWith _ d (endsWith_skipBlank (hpacked.endsWith c e h he)) hread
        · simp at hread
      · simp at hread

theorem introduced?_eq (keywords : List String) (c : Cursor) :
    introduced? keywords c =
      if c.after.head? = some '=' then packedKeyword? keywords c.next.skipBlank else none := by
  unfold introduced?
  cases c.after with
  | nil => rfl
  | cons a rest => split <;> simp_all

theorem stopsBeforeEnd_introduced? (keywords : List String) :
    StopsBeforeEnd (introduced? keywords) := by
  have hpacked := stopsBeforeEnd_packedKeyword? keywords
  have hnext : ∀ c : Cursor, c.EndsWith ';' → c.after.head? = some '=' → c.next.EndsWith ';' :=
    fun c h hhead => h.next (by simp [hhead])
  constructor
  case leads =>
    intro c d hread
    rw [introduced?_eq] at hread
    split at hread
    · have hskip := (Cursor.leads_next c).trans (Cursor.leads_skipWhile isBlank _)
      exact hskip.trans (hpacked.leads _ d hread)
    · simp at hread
  case extend =>
    intro c h more
    rw [introduced?_eq, introduced?_eq, h.head?_extend]
    split
    · next hhead =>
      have hends := hnext c h hhead
      rw [h.next_extend, skipBlank_extend hends, hpacked.extend _ (endsWith_skipBlank hends)]
    · rfl
  case endsWith =>
    intro c d h hread
    rw [introduced?_eq] at hread
    split at hread
    · next hhead => exact hpacked.endsWith _ d (endsWith_skipBlank (hnext c h hhead)) hread
    · simp at hread

theorem classIntroduced?_extend (h : c.EndsWith ';') (more : List Char) :
    classIntroduced? (c.extend more) =
      (classIntroduced? c).map fun (name, behind) => (name, behind.extend more) := by
  have hname := h.skipWhile isNameChar_semicolon
  have hclass := stopsBeforeEnd_introduced? ["class"]
  obtain ⟨htake, -⟩ := splitWhile_append hname.ne_nil more
  have hstart : (c.extend more).atRunStart isNameChar = c.atRunStart isNameChar := by
    rw [Cursor.atRunStart, Cursor.atRunStart, h.head?_extend, Cursor.before_extend]
  unfold classIntroduced?
  rw [hstart, h.head?_extend, Cursor.skipWhile_extend hname.ne_nil, skipBlank_extend hname,
    hclass.extend _ (endsWith_skipBlank hname), Cursor.after_extend, htake]
  split
  · rw [Option.map_map, Option.map_map]
    rfl
  · rfl

theorem of_classIntroduced? {name : List Char} {behind : Cursor} (h : c.EndsWith ';')
    (hread : classIntroduced? c = some (name, behind)) :
    c.Leads behind ∧ behind.EndsWith ';' := by
  unfold classIntroduced? at hread
  split at hread
  · obtain ⟨d, hd, heq⟩ := Option.map_eq_some_iff.mp hread
    obtain ⟨-, rfl⟩ := Prod.mk.inj heq
    have hclass := stopsBeforeEnd_introduced? ["class"]
    have hname := h.skipWhile isNameChar_semicolon
    have hskip := (Cursor.leads_skipWhile isNameChar c).trans (Cursor.leads_skipWhile isBlank _)
    exact ⟨hskip.trans (hclass.leads _ d hd), hclass.endsWith _ d (endsWith_skipBlank hname) hd⟩
  · simp at hread

theorem stopsBeforeEnd_pastModifiers? : StopsBeforeEnd pastModifiers? := by
  constructor
  case leads =>
    intro c d hread
    simp only [pastModifiers?] at hread
    split at hread
    · next w hw =>
      obtain ⟨hfirst, hbehind⟩ := Cursor.leads_adjacentWord? hw
      split at hread
      · simp at hread
      · simp at hread
      · exact Option.some.inj hread ▸ hfirst.trans hbehind
      · exact Option.some.inj hread ▸ hfirst.trans hbehind
      · exact Option.some.inj hread ▸ .refl c
    · exact Option.some.inj hread ▸ .refl c
  case extend =>
    intro c h more
    simp only [pastModifiers?, h.adjacentWord?_extend isIdent_semicolon isBlank_semicolon]
    cases c.adjacentWord? with
    | none => rfl
    | some w =>
      simp only [Option.map_some, Word.lower_extend]
      split <;> rfl
  case endsWith =>
    intro c d h hread
    simp only [pastModifiers?] at hread
    split at hread
    · next w hw =>
      have hbehind := h.of_adjacentWord? isIdent_semicolon isBlank_semicolon hw
      split at hread <;> simp_all
    · simp_all

/-! ## Bodies -/

theorem semicolonFollows_extend (h : c.EndsWith ';') (more : List Char) :
    semicolonFollows (c.extend more) = semicolonFollows c := by
  rw [semicolonFollows, skipBlank_extend h, (endsWith_skipBlank h).head?_extend]
  rfl

theorem ancestors_of_head? (h : c.skipBlank.after.head? ≠ some '(') : ancestors c = ([], c) := by
  unfold ancestors
  split
  · next hafter => simp [hafter] at h
  · rfl

theorem ancestors_of_splitAtClose? {rest inside behind : List Char}
    (hafter : c.skipBlank.after = '(' :: rest)
    (hsplit : splitAtClose? '(' ')' ('(' :: rest) = some (inside, behind)) :
    ancestors c =
      ((splitTopLevel ',' (inside.drop 1)).map fun a => String.ofList (squash a),
        c.skipBlank.advance (inside ++ [')']) behind) := by
  simp only [ancestors, hafter, hsplit]

theorem leads_ancestors (c : Cursor) : c.Leads (ancestors c).2 := by
  have hskip : c.Leads c.skipBlank := Cursor.leads_skipWhile ..
  by_cases hhead : c.skipBlank.after.head? = some '('
  · obtain ⟨rest, hafter⟩ := List.head?_eq_some_iff.mp hhead
    cases hsplit : splitAtClose? '(' ')' ('(' :: rest) with
    | none =>
      simp only [ancestors, hafter, hsplit]
      exact Cursor.leads_toEnd c
    | some parts =>
      rw [ancestors_of_splitAtClose? hafter hsplit]
      refine hskip.trans (.of_advance ?_)
      rw [hafter, ← append_of_splitAtClose? hsplit, List.append_assoc, List.singleton_append]
  · rw [ancestors_of_head? hhead]
    exact .refl c

/-- Ancestors in parentheses that are closed are read as they are. -/
theorem ancestors_extend (h : c.EndsWith ';') (hclosed : (ancestors c).2.after ≠ [])
    (more : List Char) :
    ancestors (c.extend more) = ((ancestors c).1, (ancestors c).2.extend more) ∧
      (ancestors c).2.EndsWith ';' := by
  have hends := endsWith_skipBlank h
  have hskip := skipBlank_extend h more
  by_cases hhead : c.skipBlank.after.head? = some '('
  · obtain ⟨rest, hafter⟩ := List.head?_eq_some_iff.mp hhead
    cases hsplit : splitAtClose? '(' ')' ('(' :: rest) with
    | none => simp [ancestors, hafter, hsplit, Cursor.toEnd] at hclosed
    | some parts =>
      obtain ⟨inside, behind⟩ := parts
      have hafter' : (c.extend more).skipBlank.after = '(' :: (rest ++ more) := by
        rw [hskip, Cursor.after_extend, hafter, List.cons_append]
      have hsplit' :
          splitAtClose? '(' ')' ('(' :: (rest ++ more)) = some (inside, behind ++ more) :=
        closeFrom_append_right hsplit more
      rw [ancestors_of_splitAtClose? hafter hsplit, ancestors_of_splitAtClose? hafter' hsplit',
        hskip]
      rw [ancestors_of_splitAtClose? hafter hsplit] at hclosed
      refine ⟨rfl, hends.of_leads (.of_advance ?_) hclosed⟩
      rw [hafter, ← append_of_splitAtClose? hsplit, List.append_assoc, List.singleton_append]
  · have hhead' : (c.extend more).skipBlank.after.head? ≠ some '(' := by
      rwa [hskip, hends.head?_extend]
    rw [ancestors_of_head? hhead, ancestors_of_head? hhead']
    exact ⟨rfl, h⟩

theorem classStep_extend (w : Word) (h : w.behind.EndsWith ';') :
    classStep (w.extend more) = classStep w := by
  have hnext : (w.extend more).behind.adjacentWord? = w.behind.adjacentWord?.map (·.extend more) :=
    h.adjacentWord?_extend isIdent_semicolon isBlank_semicolon more
  have hbefore : (w.extend more).first.lastSignificant? = w.first.lastSignificant? := rfl
  unfold classStep
  rw [Word.lower_extend, hbefore, hnext, Option.any_map]
  rfl

/-! ## Members -/

theorem bounds_of_mem_statementsFrom {start n depth : Nat} {piece cs : List Char}
    (h : start + width piece ≤ n) :
    ∀ p ∈ statementsFrom start n depth piece cs, p.1 + width p.2 ≤ n + width cs := by
  fun_induction statementsFrom start n depth piece cs with
  | case1 start n depth piece => simpa [width_reverse, width] using h
  | case2 start n depth piece c cs n' hc ih =>
    have hn : n' + width cs = n + width (c :: cs) := Nat.add_assoc ..
    refine List.forall_mem_cons.mpr ⟨?_, hn ▸ ih le_rfl⟩
    rw [width_reverse]
    exact h.trans (Nat.le_add_right _ _)
  | case3 start n depth piece c cs n' hc depth' ih =>
    have hn : n' + width cs = n + width (c :: cs) := Nat.add_assoc ..
    have hpiece : start + width (c :: piece) ≤ n' := by
      rw [width]
      omega
    exact hn ▸ ih hpiece

theorem bounds_of_mem_statements {n : Nat} {cs : List Char} :
    ∀ p ∈ statements n cs, p.1 + width p.2 ≤ n + width cs := by
  intro p hp
  obtain ⟨hp, -⟩ := List.mem_filter.mp hp
  obtain ⟨⟨start, piece⟩, hpiece, rfl⟩ := List.mem_map.mp hp
  have hbound := bounds_of_mem_statementsFrom (Nat.le_refl n) _ hpiece
  have := width_trim_le piece
  simp only at hbound ⊢
  omega

theorem leads_memberContext (m : MemberContext) (c : Cursor) : c.Leads (m.read c).2 := by
  fun_induction MemberContext.read m c with
  | case1 => exact .refl _
  | case2 m c w hw m' hm ih =>
    obtain ⟨hfirst, hbehind⟩ := Cursor.leads_adjacentWord? hw
    exact ((hfirst.trans hbehind).trans (Cursor.leads_skipWhile ..)).trans ih
  | case3 => exact .refl _

section Sources

variable {source source' : Masked} {s : ExtractionSettings}

theorem note_congr {owner : String} {m : Members} {p : Nat × List Char}
    (h : ∀ n ≤ p.1 + width p.2, source'.lineAt n = source.lineAt n) :
    Members.note source' s owner m p = Members.note source s owner m p := by
  obtain ⟨n, text⟩ := p
  have hlead := leads_memberContext { m.context with classLevel := false } ⟨n, [], text⟩
  have hoffset := Cursor.offset_add_width_after hlead
  simp only [Members.note]
  rw [h]
  simp only at hoffset ⊢
  omega

theorem members_read_goesOn (h : source.GoesOn source' more) (hc : c.StandsIn source.code)
    {d : Cursor} (hlead : c.Leads d) (owner : String) :
    Members.read source' s owner ⟨c.offset, d.offset⟩ =
      Members.read source s owner ⟨c.offset, d.offset⟩ := by
  obtain ⟨moved, hafter, hd⟩ := hlead
  have hslice := hc.slice_eq hafter hd
  have hc' : c.StandsIn source'.code :=
    ⟨hc.offset_eq, hc.text_prefix.trans ⟨more, h.code_eq.symm⟩⟩
  have hlimit := (hc.of_leads ⟨moved, hafter, hd⟩).offset_le
  rw [Members.read, Members.read, hc'.slice_eq hafter hd, hslice]
  refine List.foldl_ext _ _ _ fun m p hp => note_congr fun n hn => h.lineAt_eq n ?_
  have hbound := bounds_of_mem_statements p hp
  have hoffset : d.offset = c.offset + width moved := by rw [hd]; rfl
  simp only at hbound
  omega

/-! ## Classes -/

theorem exists_of_isClosed {b : BlockScan} (h : b.isClosed = true) : ∃ w, b.ending = .closed w := by
  unfold BlockScan.isClosed at h
  split at h
  · next w hw => exact ⟨w, hw⟩
  · exact absurd h Bool.false_ne_true

theorem after_ne_nil_of_isClosed (h : (scanBlock classStep c).isClosed = true) : c.after ≠ [] := by
  obtain ⟨w, hw⟩ := exists_of_isClosed h
  intro hnil
  rw [scanBlock, scanBlockAt] at hw
  split at hw
  · simp at hw
  · next v hv =>
    obtain ⟨a, rest, hfirst, -⟩ := Cursor.ident_of_nextWord? hv
    have hle := (Cursor.leads_nextWord? hv).1.length_le
    simp [hnil, hfirst] at hle

theorem after_ne_nil_of_semicolonFollows (h : semicolonFollows c = true) : c.after ≠ [] := by
  intro hnil
  simp [semicolonFollows, Cursor.skipBlank, Cursor.skipWhile, hnil] at h

theorem ofBody_goesOn (h : source.GoesOn source' more) (hc : c.StandsIn source.code)
    (hends : c.EndsWith ';') {facts : ClassDecl} {start : Nat}
    (hclosed : (ParsedClass.ofBody source s facts start c).terminated = true) :
    ParsedClass.ofBody source' s facts start (c.extend more) =
      ParsedClass.ofBody source s facts start c := by
  obtain ⟨w, hw⟩ := exists_of_isClosed hclosed
  have hlead := leads_scanBlock classStep c
  rw [hw] at hlead
  have hmore : (scanBlock classStep (c.extend more)).ending = .closed (w.extend more) :=
    (scanBlockAt_extend isIdent_semicolon (fun v => classStep_extend v) hends hw).2
  have hmembers := members_read_goesOn (s := s) h hc hlead.1 facts.name
  simp only [ParsedClass.ofBody, hw, hmore, BlockScan.stopCursor, BlockScan.isClosed, Word.start,
    Word.extend, Cursor.offset_extend, hmembers]

/-- What an introducer declares in a text that ends with a semicolon, if it is closed. -/
theorem read?_goesOn (h : source.GoesOn source' more) {i : Match (List Char)}
    (hfirst : i.first.StandsIn source.code) (hbehind : i.behind.StandsIn source.code)
    (hends : i.behind.EndsWith ';')
    (hclosed : ∀ c ∈ ParsedClass.read? source s i, c.terminated = true) :
    ParsedClass.read? source' s (i.extend more) = ParsedClass.read? source s i := by
  have hmodifiers := stopsBeforeEnd_pastModifiers?
  have hline : source'.lineAt i.first.offset = source.lineAt i.first.offset :=
    h.lineAt_eq _ hfirst.offset_le
  unfold ParsedClass.read? at hclosed ⊢
  simp only [Match.extend, hmodifiers.extend _ hends, Cursor.offset_extend, hline] at hclosed ⊢
  cases hpast : pastModifiers? i.behind with
  | none => rfl
  | some c =>
    have hc := hmodifiers.endsWith _ c hends hpast
    have hhead := (endsWith_skipBlank hc).head?_extend more
    simp only [hpast, Option.map_some, semicolonFollows_extend hc, skipBlank_extend hc,
      hhead] at hclosed ⊢
    by_cases hsemicolon : semicolonFollows c = true
    · rw [if_pos hsemicolon, if_pos hsemicolon]
    · simp only [if_neg hsemicolon] at hclosed ⊢
      have hne : (ancestors c).2.after ≠ [] := by
        split at hclosed
        · next hdone => exact after_ne_nil_of_semicolonFollows (by simp_all)
        · exact after_ne_nil_of_isClosed (hclosed _ rfl)
      obtain ⟨hancestors, hafter⟩ := ancestors_extend hc hne more
      rw [hancestors]
      simp only [semicolonFollows_extend hafter, Cursor.offset_extend]
      split
      · rfl
      · next hopen =>
        rw [if_neg hopen] at hclosed
        have hlead := (hmodifiers.leads _ c hpast).trans (leads_ancestors c)
        exact congrArg some (ofBody_goesOn h (hbehind.of_leads hlead) hafter (hclosed _ rfl))

/-- The classes found so far, and the one that an introducer outside the closed ones declares. -/
def withIntroduced (source : Masked) (s : ExtractionSettings) (found : List ParsedClass)
    (i : Match (List Char)) : List ParsedClass :=
  if found.any fun c => c.terminated && c.span.contains i.first.offset then found
  else found ++ (ParsedClass.read? source s i).toList

theorem findClasses_eq (source : Masked) (s : ExtractionSettings) :
    findClasses source s = (classIntroducers source.code).foldl (withIntroduced source s) [] := rfl

theorem withIntroduced_eq (source : Masked) (s : ExtractionSettings) :
    withIntroduced source s =
      addUncovered (fun i c => c.terminated && c.span.contains i.first.offset)
        (ParsedClass.read? source s) := rfl

theorem exists_foldl_withIntroduced (source : Masked) (s : ExtractionSettings)
    (found : List ParsedClass) (introducers : List (Match (List Char))) :
    ∃ rest, introducers.foldl (withIntroduced source s) found = found ++ rest ∧
      ∀ c ∈ rest, ∃ i ∈ introducers, ParsedClass.read? source s i = some c := by
  rw [withIntroduced_eq]
  exact exists_foldl_addUncovered _ _ found introducers

theorem foldl_withIntroduced_goesOn (h : source.GoesOn source' more)
    {introducers : List (Match (List Char))}
    (hstands : ∀ i ∈ introducers, i.first.StandsIn source.code ∧ i.behind.StandsIn source.code ∧
      i.behind.EndsWith ';')
    {found : List ParsedClass}
    (hclosed : ∀ c ∈ introducers.foldl (withIntroduced source s) found, c.terminated = true) :
    (introducers.map (·.extend more)).foldl (withIntroduced source' s) found =
      introducers.foldl (withIntroduced source s) found := by
  induction introducers generalizing found with
  | nil => rw [List.map_nil, List.foldl_nil, List.foldl_nil]
  | cons i introducers ih =>
    obtain ⟨⟨hfirst, hbehind, hends⟩, hstands⟩ := List.forall_mem_cons.mp hstands
    have hstep :
        withIntroduced source' s found (i.extend more) = withIntroduced source s found i := by
      have hoffset : (i.extend more).first.offset = i.first.offset := rfl
      unfold withIntroduced
      rw [hoffset]
      split
      · rfl
      · next hopen =>
        -- what is found stays found, so what this introducer declares is closed
        obtain ⟨rest, hrest, -⟩ :=
          exists_foldl_withIntroduced source s (withIntroduced source s found i) introducers
        rw [List.foldl_cons, hrest, withIntroduced, if_neg hopen] at hclosed
        have hi : ∀ c ∈ ParsedClass.read? source s i, c.terminated = true := fun c hc =>
          hclosed c (List.mem_append_left _ (List.mem_append_right _ (Option.mem_toList.mpr hc)))
        rw [read?_goesOn h hfirst hbehind hends hi]
    rw [List.map_cons, List.foldl_cons, List.foldl_cons, hstep]
    exact ih hstands hclosed

theorem start_of_read? {i : Match (List Char)} {c : ParsedClass}
    (h : ParsedClass.read? source s i = some c) : c.span.start = i.first.offset := by
  unfold ParsedClass.read? at h
  split at h
  · simp at h
  · simp only at h
    split at h
    · simp at h
    · split at h <;> obtain rfl := Option.some.inj h <;> rfl

end Sources

/-- However a text goes on behind a semicolon, the classes in front of it are found first, and as
they are if they are closed there; all notes are on classes behind it. -/
theorem exists_findClasses_append {a : List Char}
    (h : (segments .pascal a).getLast? = some (.code ';')) {s : ExtractionSettings}
    (hclosed : ∀ c ∈ findClasses (.of .pascal a) s, c.terminated = true) (b : List Char) :
    ∃ rest, findClasses (.of .pascal (a ++ b)) s = findClasses (.of .pascal a) s ++ rest ∧
      (∀ c ∈ rest, width a ≤ c.span.start) ∧
      ∀ path, classDiagnostics path (findClasses (.of .pascal (a ++ b)) s) =
        classDiagnostics path rest := by
  have hgoes := Masked.goesOn_of_append h (by decide) b
  have hlast := Masked.getLast?_code h
  have hwidth : width (Masked.of .pascal a).code = width a := (masks_segments .pascal a).width_eq
  have hread : ∀ c : Cursor, c.EndsWith ';' →
      classIntroduced? (c.extend (Masked.of .pascal b).code) =
        (classIntroduced? c).map fun (name, behind) =>
          (name, behind.extend (Masked.of .pascal b).code) :=
    fun c hc => classIntroduced?_extend hc _
  obtain ⟨later, hlater, hbehind⟩ := exists_allMatches_append hlast _ hread
  have hstands : ∀ i ∈ classIntroducers (Masked.of .pascal a).code,
      i.first.StandsIn (Masked.of .pascal a).code ∧ i.behind.StandsIn (Masked.of .pascal a).code ∧
        i.behind.EndsWith ';' := by
    intro i hi
    obtain ⟨hlead, hne, hread⟩ := leads_of_mem_allMatches hi
    have hstart : (Cursor.ofText (Masked.of .pascal a).code).StandsIn (Masked.of .pascal a).code :=
      ⟨rfl, List.prefix_rfl⟩
    have htext : (Cursor.ofText (Masked.of .pascal a).code).EndsWith ';' := hlast
    have hends := htext.of_leads hlead hne
    obtain ⟨hlead', hends'⟩ := of_classIntroduced? hends hread
    exact ⟨hstart.of_leads hlead, hstart.of_leads (hlead.trans hlead'), hends'⟩
  obtain ⟨rest, hrest, hread⟩ := exists_foldl_withIntroduced (.of .pascal (a ++ b)) s
    (findClasses (.of .pascal a) s) later
  have hfound : findClasses (.of .pascal (a ++ b)) s = findClasses (.of .pascal a) s ++ rest := by
    rw [← hrest, findClasses_eq, classIntroducers, hgoes.code_eq, hlater, List.foldl_append]
    congr 1
    exact foldl_withIntroduced_goesOn hgoes hstands hclosed
  refine ⟨rest, hfound, fun c hc => ?_, fun path => ?_⟩
  · obtain ⟨i, hi, hread⟩ := hread c hc
    rw [start_of_read? hread, ← hwidth]
    exact hbehind i hi
  · -- the classes in front of the semicolon are closed, so none of them is noted
    have hnone : (findClasses (.of .pascal a) s).filter (!·.terminated) = [] :=
      List.filter_eq_nil_iff.mpr fun c hc => by simp [hclosed c hc]
    rw [hfound, classDiagnostics, List.filter_append, hnone, List.nil_append, classDiagnostics]

def orderClass : List Char := "type TOrder = class(TObject) FTotal: Currency; end;".toList

def brokenClass : List Char := " TPart = class FName: string; implementation".toList

theorem exists_findClasses_append_brokenClass :
    (findClasses (.of .pascal (orderClass ++ brokenClass)) {}).length = 2 ∧
      ∃ rest, findClasses (.of .pascal (orderClass ++ brokenClass)) {} =
        findClasses (.of .pascal orderClass) {} ++ rest ∧
        (∀ c ∈ rest, width orderClass ≤ c.span.start) ∧
        ∀ path, classDiagnostics path (findClasses (.of .pascal (orderClass ++ brokenClass)) {}) =
          classDiagnostics path rest := by
  have hclosed : (findClasses (.of .pascal orderClass) {}).countP (!·.terminated) = 0 := by
    decide +kernel
  refine ⟨by decide +kernel, exists_findClasses_append (by decide +kernel) ?_ brokenClass⟩
  simpa using List.countP_eq_zero.mp hclosed

end MigrationAudit.Pascal
