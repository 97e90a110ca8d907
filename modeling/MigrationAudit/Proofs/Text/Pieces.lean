import MigrationAudit.Text.Split
import MigrationAudit.Proofs.Text.Brackets
import MigrationAudit.Proofs.Text.Words

/-!
# Texts put together from pieces

A text that is put together from pieces and separators, where no piece holds a separator, comes
apart into the same pieces again.
-/

namespace MigrationAudit.Text

variable {sep : Char} {cs rest : List Char}

/-! ## Runs at the start -/

theorem takeWhile_eq_nil_of_head? {α : Type} {p : α → Bool} {xs : List α}
    (h : xs.head?.any p = false) : xs.takeWhile p = [] := by
  cases xs with
  | nil => rfl
  | cons a xs =>
    have ha : p a = false := by simpa using h
    simp [ha]

theorem dropWhile_eq_self_of_head? {p : Char → Bool} (h : cs.head?.any p = false) :
    cs.dropWhile p = cs := by
  have hsplit := List.takeWhile_append_dropWhile (p := p) (l := cs)
  rwa [takeWhile_eq_nil_of_head? h] at hsplit

theorem takeWhile_append_of_head? {p : Char → Bool} (h : ∀ c ∈ cs, p c = true)
    (hrest : rest.head?.any p = false) : (cs ++ rest).takeWhile p = cs := by
  rw [List.takeWhile_append_of_pos h, takeWhile_eq_nil_of_head? hrest, List.append_nil]

theorem takeWhile_append_left {α : Type} {p : α → Bool} {xs rest : List α}
    (h : rest.head?.any p = false) : (xs ++ rest).takeWhile p = xs.takeWhile p := by
  rw [List.takeWhile_append]
  split
  · next hall =>
    rw [takeWhile_eq_nil_of_head? h, List.append_nil,
      (List.takeWhile_prefix p).eq_of_length hall]
  · rfl

/-- A run that does not go on at the start of what follows ends before it. -/
theorem takeWhile_append_prefix {p : Char → Bool} (h : rest.head?.any p = false) :
    (cs ++ rest).takeWhile p <+: cs := by
  rw [List.takeWhile_append]
  split
  · simp [takeWhile_eq_nil_of_head? h]
  · exact List.takeWhile_prefix _

theorem dropWhile_append_of_head? {p : Char → Bool} (h : ∀ c ∈ cs, p c = true)
    (hrest : rest.head?.any p = false) : (cs ++ rest).dropWhile p = rest := by
  rw [List.dropWhile_append_of_pos h, dropWhile_eq_self_of_head? hrest]

theorem Cursor.skipWhile_of_after {p : Char → Bool} {c : Cursor} (hafter : c.after = cs ++ rest)
    (h : ∀ a ∈ cs, p a = true) (hrest : rest.head?.any p = false) :
    c.skipWhile p = c.advance cs rest := by
  rw [skipWhile, hafter, takeWhile_append_of_head? h hrest, dropWhile_append_of_head? h hrest]

theorem trimWhere_eq_self {p : Char → Bool} (hhead : cs.head?.any p = false)
    (hlast : cs.getLast?.any p = false) : trimWhere p cs = cs := by
  rw [trimWhere, dropEndWhile, dropWhile_eq_self_of_head? hhead,
    dropWhile_eq_self_of_head? (by rwa [List.head?_reverse]), List.reverse_reverse]

theorem trim_cons_space (cs : List Char) : trim (' ' :: cs) = trim cs := by
  rw [trim, trimWhere, List.dropWhile_cons_of_pos (by decide)]
  rfl

/-- A text starts with a character, when white space in front of it does not count. -/
def LeadsWith (cs : List Char) (a : Char) : Prop :=
  ∃ gap rest, cs = gap ++ a :: rest ∧ ∀ b ∈ gap, isBlank b = true

theorem leadsWith_of_head?_trimStart (h : (trimStart cs).head? = some sep) : LeadsWith cs sep := by
  obtain ⟨rest, hrest⟩ := List.head?_eq_some_iff.mp h
  refine ⟨cs.takeWhile isBlank, rest, ?_, fun a ha => List.mem_takeWhile_imp ha⟩
  rw [← hrest, trimStart, List.takeWhile_append_dropWhile]

theorem head?_trimStart_iff (hsep : isBlank sep = false) :
    (trimStart cs).head? = some sep ↔ LeadsWith cs sep := by
  refine ⟨leadsWith_of_head?_trimStart, ?_⟩
  rintro ⟨gap, rest, rfl, hgap⟩
  rw [trimStart, dropWhile_append_of_head? hgap (by simp [hsep])]
  rfl

theorem leadingWord?_trimStart (cs : List Char) :
    leadingWord? (trimStart cs) = leadingWord? cs := by
  have htrim : trimStart (trimStart cs) = trimStart cs :=
    dropWhile_eq_self_of_head? (head?_any_dropWhile isBlank cs)
  rw [leadingWord?, leadingWord?, htrim]

theorem leadingWord?_append (hne : cs ≠ []) (hident : ∀ c ∈ cs, isIdent c = true)
    (hrest : rest.head?.any isIdent = false) : leadingWord? (cs ++ rest) = some (cs, rest) := by
  have htrim : trimStart (cs ++ rest) = cs ++ rest := by
    obtain ⟨c, cs, rfl⟩ := List.exists_cons_of_ne_nil hne
    exact dropWhile_eq_self_of_head? (isBlank_of_isIdent (hident c List.mem_cons_self))
  simp only [leadingWord?, htrim, takeWhile_append_of_head? hident hrest,
    dropWhile_append_of_head? hident hrest]

/-! ## Separators -/

theorem splitFirst?_append (h : sep ∉ cs) :
    splitFirst? sep (cs ++ sep :: rest) = some (cs, rest) := by
  have hne : ∀ c ∈ cs, (c != sep) = true := fun c hc => by
    simpa using ne_of_mem_of_not_mem hc h
  rw [splitFirst?, dropWhile_append_of_head? hne (by simp), takeWhile_append_of_head? hne (by simp)]

theorem splitFirst?_eq_none (h : sep ∉ cs) : splitFirst? sep cs = none := by
  have hdrop : cs.dropWhile (· != sep) = [] :=
    List.dropWhile_eq_nil_iff.mpr fun c hc => by simpa using ne_of_mem_of_not_mem hc h
  rw [splitFirst?, hdrop]

theorem splitLast?_append (h : sep ∉ rest) :
    splitLast? sep (cs ++ sep :: rest) = some (cs, rest) := by
  rw [splitLast?, List.reverse_append, List.reverse_cons, List.append_assoc, List.singleton_append,
    splitFirst?_append (by simpa using h)]
  simp

theorem splitLast?_eq_none (h : sep ∉ cs) : splitLast? sep cs = none := by
  rw [splitLast?, splitFirst?_eq_none (by simpa using h), Option.map_none]

theorem splitAll_eq_singleton (h : sep ∉ cs) : splitAll sep cs = [cs] := by
  induction cs with
  | nil => rfl
  | cons c cs ih =>
    rw [List.mem_cons, not_or] at h
    have hc : (c == sep) = false := by simpa using Ne.symm h.1
    simp [splitAll, hc, ih h.2]

theorem splitAll_append (h : sep ∉ cs) :
    splitAll sep (cs ++ sep :: rest) = cs :: splitAll sep rest := by
  induction cs with
  | nil => simp [splitAll]
  | cons c cs ih =>
    rw [List.mem_cons, not_or] at h
    have hc : (c == sep) = false := by simpa using Ne.symm h.1
    simp [splitAll, hc, ih h.2]

/-! ## Brackets -/

/-- The characters that open or close brackets. -/
def brackets : List Char := ['(', ')', '[', ']', '\x7b', '\x7d', '<', '>']

theorem bracketFree_of_notMem {c : Char} (h : c ∉ brackets) :
    isOpening c = false ∧ isClosing c = false := by
  simp only [brackets, List.mem_cons, List.not_mem_nil, or_false, not_or] at h
  simp [isOpening, isClosing, h]

def IsBracketFree (cs : List Char) : Prop := ∀ c ∈ cs, isOpening c = false ∧ isClosing c = false

instance (cs : List Char) : Decidable (IsBracketFree cs) :=
  List.decidableBAll _ cs

theorem isBracketFree_append_iff {a b : List Char} :
    IsBracketFree (a ++ b) ↔ IsBracketFree a ∧ IsBracketFree b := List.forall_mem_append

theorem IsBracketFree.isBracketBalanced (h : IsBracketFree cs) : IsBracketBalanced cs := by
  have hnot {c : Char} (hc : isOpening c = true ∨ isClosing c = true) : c ∉ cs := fun hmem => by
    simp [h c hmem] at hc
  exact ⟨.of_not_mem (hnot (by decide)) (hnot (by decide)),
    .of_not_mem (hnot (by decide)) (hnot (by decide)),
    .of_not_mem (hnot (by decide)) (hnot (by decide)),
    .of_not_mem (hnot (by decide)) (hnot (by decide))⟩

theorem splitAtClose?_append {opening close : Char} (hopening : isOpening opening = true)
    (hclosing : isClosing close = true) (hfree : IsBracketFree cs) :
    splitAtClose? opening close (opening :: (cs ++ close :: rest)) =
      some (opening :: cs, rest) := by
  have hne : close ≠ opening := by
    rintro rfl
    revert hopening hclosing
    simp only [isOpening, isClosing, Bool.or_eq_true, beq_iff_eq]
    rintro (((rfl | rfl) | rfl) | rfl) <;> decide
  refine splitAtClose?_of_isPaired hne (.of_forall fun c hc => ⟨?_, ?_⟩)
  all_goals
    obtain ⟨hopens, hcloses⟩ := hfree c hc
    rw [beq_eq_false_iff_ne]
    rintro rfl
    simp_all

/-- A text goes into one piece as a whole, whatever piece it comes to. -/
def IsPiece (sep : Char) (cs : List Char) : Prop :=
  ∀ piece rest,
    topLevelPieces sep 0 piece (cs ++ rest) = topLevelPieces sep 0 (cs.reverse ++ piece) rest

namespace IsPiece

theorem nil : IsPiece sep [] := fun _ _ => rfl

theorem append {a b : List Char} (ha : IsPiece sep a) (hb : IsPiece sep b) :
    IsPiece sep (a ++ b) := by
  intro piece rest
  rw [List.append_assoc, ha, hb, List.reverse_append, List.append_assoc]

theorem of_isPaired (h : IsPaired isOpening isClosing cs) (hsep : sep ∉ cs) : IsPiece sep cs :=
  fun piece rest => @topLevelPieces_of_closesAll sep 0 cs h 0 (.inr hsep) piece rest

theorem of_isBracketFree (hfree : IsBracketFree cs) (hsep : sep ∉ cs) : IsPiece sep cs :=
  of_isPaired (.of_forall hfree) hsep

/-- The separators inside brackets separate nothing. -/
theorem enclose {opening close : Char} (hopening : isOpening opening = true)
    (hclose : isOpening close = false) (hclosing : isClosing close = true)
    (h : IsPaired isOpening isClosing cs) : IsPiece sep (opening :: (cs ++ [close])) := by
  intro piece rest
  have hinside :=
    @topLevelPieces_of_closesAll sep 0 cs h 1 (.inl Nat.one_pos) (opening :: piece)
      (close :: rest)
  rw [Nat.zero_add] at hinside
  rw [List.cons_append, List.append_assoc, List.singleton_append, topLevelPieces, if_pos hopening,
    Nat.zero_add, hinside, topLevelPieces, hclose, if_neg Bool.false_ne_true, if_pos hclosing]
  simp

end IsPiece

def separated (sep : Char) (pieces : List (List Char)) : List Char :=
  pieces.flatMap fun piece => sep :: ' ' :: piece

theorem topLevelPieces_separated {pieces : List (List Char)} (hopening : isOpening sep = false)
    (hclosing : isClosing sep = false) (hblank : sep ≠ ' ')
    (hpieces : ∀ piece ∈ pieces, IsPiece sep piece) (piece : List Char) :
    topLevelPieces sep 0 piece (separated sep pieces) =
      piece.reverse :: pieces.map (' ' :: ·) := by
  induction pieces generalizing piece with
  | nil => simp [separated, topLevelPieces]
  | cons next pieces ih =>
    obtain ⟨hnext, hpieces⟩ := List.forall_mem_cons.mp hpieces
    have hfree : IsBracketFree [' '] := by decide
    have hspace : IsPiece sep (' ' :: next) :=
      (IsPiece.of_isBracketFree hfree (by simpa using hblank)).append hnext
    rw [separated, List.flatMap_cons, List.cons_append, topLevelPieces]
    simp only [hopening, hclosing, Bool.false_eq_true, if_false, beq_self_eq_true, Bool.and_self,
      if_true]
    rw [hspace, List.append_nil, ← separated, ih hpieces, List.reverse_reverse, List.map_cons]

theorem splitTopLevel_separated {piece : List Char} {pieces : List (List Char)}
    (hopening : isOpening sep = false) (hclosing : isClosing sep = false) (hblank : sep ≠ ' ')
    (hpieces : ∀ p ∈ piece :: pieces, IsPiece sep p)
    (hne : ∀ p ∈ piece :: pieces, p ≠ [])
    (hhead : ∀ p ∈ piece :: pieces, p.head?.any isBlank = false)
    (hlast : ∀ p ∈ piece :: pieces, p.getLast?.any isBlank = false) :
    splitTopLevel sep (piece ++ separated sep pieces) = piece :: pieces := by
  have htrim : ∀ p ∈ piece :: pieces, trim p = p := fun p hp =>
    trimWhere_eq_self (hhead p hp) (hlast p hp)
  have hspace : ∀ p ∈ pieces, trim (' ' :: p) = p := fun p hp => by
    have hp := List.mem_cons_of_mem piece hp
    rw [trim_cons_space, htrim p hp]
  obtain ⟨hfirst, hpieces⟩ := List.forall_mem_cons.mp hpieces
  rw [splitTopLevel, hfirst, List.append_nil,
    topLevelPieces_separated hopening hclosing hblank hpieces, List.reverse_reverse, List.map_cons,
    List.map_map, List.map_congr_left (f := trim ∘ (' ' :: ·)) (g := id) hspace, List.map_id,
    htrim piece List.mem_cons_self]
  refine List.filter_eq_self.mpr fun p hp => ?_
  simpa using hne p hp

theorem splitAll_separated {piece : List Char} {pieces : List (List Char)} (hblank : sep ≠ ' ')
    (h : ∀ p ∈ piece :: pieces, sep ∉ p) :
    splitAll sep (piece ++ separated sep pieces) = piece :: pieces.map (' ' :: ·) := by
  induction pieces generalizing piece with
  | nil =>
    rw [separated, List.flatMap_nil, List.append_nil]
    exact splitAll_eq_singleton (h piece List.mem_cons_self)
  | cons next pieces ih =>
    obtain ⟨hpiece, hpieces⟩ := List.forall_mem_cons.mp h
    obtain ⟨hnext, hpieces⟩ := List.forall_mem_cons.mp hpieces
    have hspace : sep ∉ ' ' :: next := by
      rw [List.mem_cons, not_or]
      exact ⟨hblank, hnext⟩
    rw [separated, List.flatMap_cons, List.cons_append, splitAll_append hpiece, ← separated,
      ih (List.forall_mem_cons.mpr ⟨hspace, hpieces⟩), List.map_cons]

/-! ## White space at the ends -/

/-- The first character is there and is no white space. -/
def StartsVisibly (cs : List Char) : Prop := cs.head?.any (fun c => !isBlank c) = true

instance (cs : List Char) : Decidable (StartsVisibly cs) :=
  inferInstanceAs (Decidable (_ = true))

theorem StartsVisibly.append (h : StartsVisibly cs) (rest : List Char) :
    StartsVisibly (cs ++ rest) := by
  cases cs with
  | nil => simp [StartsVisibly] at h
  | cons c cs => exact h

theorem StartsVisibly.reverse_append (h : StartsVisibly cs.reverse) (front : List Char) :
    StartsVisibly (front ++ cs).reverse := by
  rw [List.reverse_append]
  exact h.append _

theorem StartsVisibly.head? (h : StartsVisibly cs) : cs.head?.any isBlank = false := by
  cases cs with
  | nil => rfl
  | cons c cs => simpa [StartsVisibly] using h

theorem StartsVisibly.dropWhile_eq (h : StartsVisibly cs) : cs.dropWhile isBlank = cs :=
  dropWhile_eq_self_of_head? h.head?

theorem startsVisibly_dropWhile (h : cs.dropWhile isBlank ≠ []) :
    StartsVisibly (cs.dropWhile isBlank) := by
  obtain ⟨c, rest, hrest⟩ := List.exists_cons_of_ne_nil h
  have hc := head?_any_dropWhile isBlank cs
  rw [hrest] at hc ⊢
  simpa [StartsVisibly] using hc

theorem trim_append {lead text trail : List Char} (hlead : ∀ c ∈ lead, isBlank c = true)
    (htrail : ∀ c ∈ trail, isBlank c = true) (hstart : StartsVisibly text)
    (hend : StartsVisibly text.reverse) :
    trim (lead ++ (text ++ trail)) = text ∧
      (lead ++ (text ++ trail)).takeWhile isBlank = lead := by
  have htrail : ∀ c ∈ trail.reverse, isBlank c = true := fun c hc =>
    htrail c (List.mem_reverse.mp hc)
  have hhead := (hstart.append trail).head?
  refine ⟨?_, takeWhile_append_of_head? hlead hhead⟩
  rw [trim, trimWhere, dropWhile_append_of_head? hlead hhead, dropEndWhile, List.reverse_append,
    List.dropWhile_append_of_pos htrail, hend.dropWhile_eq, List.reverse_reverse]

/-- A text is blank, or white space stands around a text without any at its ends. -/
theorem exists_trimmed (cs : List Char) :
    (∀ c ∈ cs, isBlank c = true) ∨
      ∃ lead text trail, cs = lead ++ (text ++ trail) ∧ (∀ c ∈ lead, isBlank c = true) ∧
        (∀ c ∈ trail, isBlank c = true) ∧ StartsVisibly text ∧ StartsVisibly text.reverse := by
  by_cases hne : cs.dropWhile isBlank = []
  · exact .inl (List.dropWhile_eq_nil_iff.mp hne)
  · right
    generalize hrest : cs.dropWhile isBlank = rest at hne
    have hstart : StartsVisibly rest := hrest ▸ startsVisibly_dropWhile (hrest.symm ▸ hne)
    have hsplit := List.takeWhile_append_dropWhile (p := isBlank) (l := rest.reverse)
    have hend : rest.reverse.dropWhile isBlank ≠ [] := by
      intro hnil
      obtain ⟨c, rest, rfl⟩ := List.exists_cons_of_ne_nil hne
      have hblank := List.dropWhile_eq_nil_iff.mp hnil c (by simp)
      simp [StartsVisibly, hblank] at hstart
    have hsplit' : (rest.reverse.dropWhile isBlank).reverse ++
        (rest.reverse.takeWhile isBlank).reverse = rest := by
      rw [← List.reverse_append, hsplit, List.reverse_reverse]
    refine ⟨cs.takeWhile isBlank, (rest.reverse.dropWhile isBlank).reverse,
      (rest.reverse.takeWhile isBlank).reverse, ?_, fun c hc => List.mem_takeWhile_imp hc,
      fun c hc => List.mem_takeWhile_imp (List.mem_reverse.mp hc), ?_, ?_⟩
    · rw [hsplit', ← hrest, List.takeWhile_append_dropWhile]
    · -- the text begins where what is left of `cs` begins
      obtain ⟨c, text, htext⟩ :=
        List.exists_cons_of_ne_nil (List.reverse_ne_nil_iff.mpr hend)
      rw [htext] at hsplit' ⊢
      rw [← hsplit'] at hstart
      exact hstart
    · rw [List.reverse_reverse]
      exact startsVisibly_dropWhile hend

theorem trim_eq_nil (h : ∀ c ∈ cs, isBlank c = true) : trim cs = [] := by
  rw [trim, trimWhere, List.dropWhile_eq_nil_iff.mpr h]
  rfl

theorem trim_append_space (cs : List Char) : trim (cs ++ [' ']) = trim cs := by
  have hspace : ∀ c ∈ [' '], isBlank c = true := List.forall_mem_singleton.mpr (by decide)
  rcases exists_trimmed cs with hblank | ⟨lead, text, trail, rfl, hlead, htrail, hstart, hend⟩
  · rw [trim_eq_nil hblank, trim_eq_nil (List.forall_mem_append.mpr ⟨hblank, hspace⟩)]
  · have hmore := List.forall_mem_append.mpr ⟨htrail, hspace⟩
    rw [List.append_assoc, List.append_assoc, (trim_append hlead hmore hstart hend).1,
      (trim_append hlead htrail hstart hend).1]

theorem map_trim_topLevelPieces (hblank : sep ≠ ' ') (depth : Nat) (piece : List Char) :
    (topLevelPieces sep depth (piece ++ [' ']) cs).map trim =
        (topLevelPieces sep depth piece cs).map trim ∧
      (topLevelPieces sep depth piece (cs ++ [' '])).map trim =
        (topLevelPieces sep depth piece cs).map trim := by
  have hopen : isOpening ' ' = false := by decide
  have hclose : isClosing ' ' = false := by decide
  have hsep : (' ' == sep) = false := by simpa using Ne.symm hblank
  induction cs generalizing depth piece with
  | nil => simp [topLevelPieces, hopen, hclose, hsep, trim_cons_space, trim_append_space]
  | cons c cs ih =>
    simp only [List.cons_append, topLevelPieces]
    split
    · exact ih _ (c :: piece)
    · split
      · exact ih _ (c :: piece)
      · split
        · rw [List.map_cons, List.map_cons, List.map_cons, (ih 0 []).2, List.reverse_append,
            List.reverse_singleton, List.singleton_append, trim_cons_space]
          exact ⟨rfl, rfl⟩
        · exact ih _ (c :: piece)

theorem splitTopLevel_spaces (hblank : sep ≠ ' ') (cs : List Char) :
    splitTopLevel sep (' ' :: (cs ++ [' '])) = splitTopLevel sep cs := by
  have hopen : isOpening ' ' = false := by decide
  have hclose : isClosing ' ' = false := by decide
  have hsep : (' ' == sep) = false := by simpa using Ne.symm hblank
  have hspaces := (@map_trim_topLevelPieces sep (cs ++ [' ']) hblank 0 []).1.trans
    (map_trim_topLevelPieces hblank 0 []).2
  rw [splitTopLevel, topLevelPieces, hopen, hclose, hsep, if_neg Bool.false_ne_true,
    if_neg Bool.false_ne_true, Bool.false_and, if_neg Bool.false_ne_true]
  rw [List.nil_append] at hspaces
  rw [hspaces, splitTopLevel]

/-! ## White space between fields -/

theorem runsOf_concat {p : Char → Bool} {c : Char} (hc : p c = false) (cs : List Char) :
    runsOf p (cs ++ [c]) = runsOf p cs := by
  induction cs with
  | nil => simp [runsOf, hc]
  | cons d cs ih =>
    rw [List.cons_append, runsOf.eq_def, runsOf.eq_def p (d :: cs)]
    simp only [ih]
    cases cs with
    | nil => simp [runsOf]
    | cons e cs => cases runsOf p (e :: cs) <;> rfl

theorem runsOf_append {p : Char → Bool} {run : List Char} (hne : run ≠ [])
    (hrun : ∀ c ∈ run, p c = true) (hrest : rest.head?.any p = false) :
    runsOf p (run ++ rest) = run :: runsOf p rest := by
  induction run with
  | nil => contradiction
  | cons c run ih =>
    obtain ⟨hc, hrun⟩ := List.forall_mem_cons.mp hrun
    rw [List.cons_append, runsOf.eq_def]
    simp only [hc, if_true]
    cases run with
    | nil =>
      cases rest with
      | nil => rfl
      | cons d rest =>
        have hd : p d = false := by simpa using hrest
        rw [List.nil_append]
        cases runsOf p (d :: rest) with
        | nil => rfl
        | cons next runs => simp [hd]
    | cons d run =>
      have hd : p d = true := hrun d List.mem_cons_self
      rw [ih (List.cons_ne_nil d run) hrun, List.cons_append]
      simp [hd]

theorem squash_of_run (hne : cs ≠ []) (h : ∀ c ∈ cs, isBlank c = false) :
    squash cs = cs ∧ squash (cs ++ [' ']) = cs := by
  have hrun : ∀ c ∈ cs, (!isBlank c) = true := fun c hc => by simp [h c hc]
  have hself : fields (cs ++ []) = [cs] := runsOf_append hne hrun rfl
  have hspace : fields (cs ++ [' ']) = [cs] := runsOf_append hne hrun rfl
  rw [List.append_nil] at hself
  rw [squash, squash, hself, hspace]
  simp [List.intercalate]

theorem mem_fields (cs : List Char) :
    ∀ run ∈ fields cs, run ≠ [] ∧ ∀ c ∈ run, isBlank c = false := by
  rw [fields]
  fun_induction runsOf (fun c => !isBlank c) cs <;> grind

theorem intercalate_cons_cons (sep run next : List Char) (runs : List (List Char)) :
    sep.intercalate (run :: next :: runs) = run ++ (sep ++ sep.intercalate (next :: runs)) := by
  simp [List.intercalate]

theorem intercalate_ne_nil {run : List Char} (sep : List Char) (runs : List (List Char))
    (h : run ≠ []) : sep.intercalate (run :: runs) ≠ [] := by
  cases runs with
  | nil => simpa using h
  | cons next runs =>
    rw [intercalate_cons_cons]
    exact List.append_ne_nil_of_left_ne_nil h _

theorem intercalate_ends {runs : List (List Char)} (sep : List Char)
    (h : ∀ run ∈ runs, run ≠ [] ∧ ∀ c ∈ run, isBlank c = false) :
    (sep.intercalate runs).head?.any isBlank = false ∧
      (sep.intercalate runs).getLast?.any isBlank = false := by
  induction runs with
  | nil => simp
  | cons run runs ih =>
    obtain ⟨⟨hne, hrun⟩, hruns⟩ := List.forall_mem_cons.mp h
    have hhead : run.head?.any isBlank = false := by
      rw [List.head?_eq_some_head hne, Option.any_some, hrun _ (List.head_mem hne)]
    have hlast : run.getLast?.any isBlank = false := by
      rw [List.getLast?_eq_some_getLast hne, Option.any_some, hrun _ (List.getLast_mem hne)]
    cases runs with
    | nil => simpa using ⟨hhead, hlast⟩
    | cons next runs =>
      have hnext := intercalate_ne_nil sep runs (hruns next List.mem_cons_self).1
      rw [intercalate_cons_cons, List.head?_append_of_ne_nil _ hne, ← List.append_assoc,
        List.getLast?_append_of_ne_nil _ hnext]
      exact ⟨hhead, (ih hruns).2⟩

theorem squash_ends (cs : List Char) :
    (squash cs).head?.any isBlank = false ∧ (squash cs).getLast?.any isBlank = false :=
  intercalate_ends [' '] (mem_fields cs)

theorem squash_ne_nil {c : Char} (hc : isBlank c = false) : squash (c :: cs) ≠ [] := by
  have hfields : fields (c :: cs) ≠ [] := by
    rw [fields, runsOf.eq_def]
    simp only [hc, Bool.not_false, if_true]
    split
    · split <;> exact List.cons_ne_nil _ _
    · exact List.cons_ne_nil _ _
  obtain ⟨run, runs, hruns⟩ := List.exists_cons_of_ne_nil hfields
  have hrun : run ≠ [] := (mem_fields (c :: cs) run (hruns ▸ List.mem_cons_self)).1
  rw [squash, hruns]
  exact intercalate_ne_nil [' '] runs hrun

theorem squash_cons_space (cs : List Char) : squash (' ' :: cs) = squash cs := by
  have hblank : isBlank ' ' = true := rfl
  simp [squash, fields, runsOf, hblank]

theorem squash_append_space (cs : List Char) : squash (cs ++ [' ']) = squash cs := by
  have hblank : (!isBlank ' ') = false := by decide
  rw [squash, fields, runsOf_concat hblank]
  rfl

theorem squashed?_of_squash {t : String} (hne : t.toList ≠ []) (h : squash cs = t.toList) :
    squashed? cs = some t := by
  rw [squashed?, h]
  split
  · contradiction
  · rw [String.ofList_toList]

theorem squashed?_eq_some {t : String} (hne : t.toList ≠ [])
    (hsquash : squash t.toList = t.toList) : squashed? (' ' :: t.toList) = some t :=
  squashed?_of_squash hne (by rw [squash_cons_space, hsquash])

end MigrationAudit.Text
