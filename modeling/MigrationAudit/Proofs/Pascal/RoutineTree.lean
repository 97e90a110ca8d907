import MigrationAudit.Proofs.Pascal.HeaderRoundTrip
import MigrationAudit.Proofs.Pascal.Layout

/-!
# Routines written out

A tree of routines is written as a text: each header, what is nested in it, and the statements
between `begin` and `end`. Reading the text gives the tree back, whatever stands around the text,
when no more routines lie in each other than may be open at once.
-/

namespace MigrationAudit.Pascal

open Text

/-! ## Trees -/

/-- A routine with a body, and the routines nested in it. -/
structure RoutineTree where
  header : Header
  nested : List RoutineTree
  statements : List Char

namespace RoutineTree

mutual

/-- A routine, written from its keyword to the semicolon behind its body. -/
def text : RoutineTree → List Char
  | ⟨header, nested, statements⟩ =>
    header.text ++ ';' :: (textOf nested ++ ("\nbegin".toList ++
      (' ' :: (statements ++ [' ']) ++ "end;".toList)))

def textOf : List RoutineTree → List Char
  | [] => []
  | t :: ts => '\n' :: (text t ++ textOf ts)

end

mutual

/-- How many routines lie in each other. -/
def height : RoutineTree → Nat
  | ⟨_, nested, _⟩ => heightOf nested + 1

/-- How many of the routines and of what is nested in them lie in each other. -/
def heightOf : List RoutineTree → Nat
  | [] => 0
  | t :: ts => max (height t) (heightOf ts)

end

/-- Every header can be written, and in every body the words that open blocks are balanced by those
that close them. -/
inductive IsPlain : RoutineTree → Prop
  | intro {header : Header} {nested : List RoutineTree} {statements : List Char}
      (header_plain : header.IsPlain) (nested_plain : ∀ t ∈ nested, t.IsPlain)
      (balanced : IsBalanced ((words statements).map bodyStep)) :
      IsPlain ⟨header, nested, statements⟩

theorem IsPlain.header {t : RoutineTree} (h : t.IsPlain) : t.header.IsPlain := by
  cases h
  assumption

theorem IsPlain.nested {t : RoutineTree} (h : t.IsPlain) : ∀ n ∈ t.nested, n.IsPlain := by
  cases h
  assumption

end RoutineTree

/-- The text between a space at either end. -/
def unspaced? : List Char → Option (List Char)
  | ' ' :: cs => if cs.getLast? = some ' ' then some cs.dropLast else none
  | _ => none

namespace RoutineNode

mutual

/-- The tree that was read, when all of it has a body, nothing is cut off and there are no
directives. -/
def tree? (code : List Char) : RoutineNode → Option RoutineTree
  | ⟨header, _, _, directives, body, unterminated, nestingCapped, _, nested⟩ =>
    if directives.isEmpty && !unterminated && !nestingCapped then
      body.bind fun b =>
        (unspaced? (b.slice code)).bind fun statements =>
          (treesOf? code nested).map fun nested => ⟨header, nested, statements⟩
    else none

def treesOf? (code : List Char) : List RoutineNode → Option (List RoutineTree)
  | [] => some []
  | r :: rs => (tree? code r).bind fun t => (treesOf? code rs).map (t :: ·)

end

end RoutineNode

/-! ## Steps of the reader -/

variable {c : Cursor} {limit : Nat} {top : RoutineNode} {parents : List RoutineNode}
  {code rest : List Char}

theorem readLocals_of_header {w : Word} {d : Declaration} (hw : c.nextWord? = some w)
    (hstep : localStep w = .header) (hd : Declaration.read? w.first = some d)
    (hforward : d.isForward = false) (hlimit : parents.length + 1 < limit) :
    readLocals limit c top parents = readLocals limit d.behind d.node (top :: parents) := by
  rw [readLocals_of_keyword hw hstep, hd, Option.elim_some, if_neg (by simp [hforward]),
    if_neg (Nat.not_le.mpr hlimit)]

theorem isIdent_newline : ∀ a ∈ ['\n'], isIdent a = false :=
  List.forall_mem_singleton.mpr (isIdent_of_isBlank '\n' rfl)

/-- The text goes on in the next line, with a word that is no directive. -/
structure GoesOn (rest word more : List Char) : Prop where
  eq : rest = '\n' :: (word ++ ' ' :: more)
  isIdentifier : isIdentifier word = true
  not_directive : lowered word ∉ directives

theorem readDirectives_of_goesOn {word more : List Char} (h : GoesOn c.after word more) :
    readDirectives c = ([], c) := by
  obtain ⟨hne, hident⟩ := isIdent_of_isIdentifier h.isIdentifier
  have hblank : ∀ a ∈ ['\n'], isBlank a = true := List.forall_mem_singleton.mpr rfl
  have hskip : c.skipBlank = c.advance ['\n'] (word ++ ' ' :: more) := by
    rw [Cursor.skipBlank, Cursor.skipWhile, h.eq, ← List.singleton_append,
      takeWhile_append_of_head? hblank (head?_name h.isIdentifier).2,
      dropWhile_append_of_head? hblank (head?_name h.isIdentifier).2]
  have hword : c.skipBlank.wordHere.text = word := by
    rw [hskip, Cursor.wordHere, Cursor.after_advance]
    exact takeWhile_append_of_head? hident isIdent_space
  have hadjacent : c.adjacentWord? = some c.skipBlank.wordHere := by
    simp [Cursor.adjacentWord?, hword, hne]
  have hlower : c.skipBlank.wordHere.lower = lowered word := by rw [Word.lower, hword, lowered]
  rw [readDirectives]
  split <;> simp_all [h.not_directive]

theorem tag_not_directive (k : RoutineKind) : lowered (tag k).toList ∉ directives := by
  cases k <;> decide

theorem exists_text_eq (t : RoutineTree) :
    ∃ more, t.text = (tag t.header.kind).toList ++ ' ' :: more := by
  obtain ⟨header, nested, statements⟩ := t
  rw [RoutineTree.text, Header.text, List.append_assoc, List.cons_append]
  exact ⟨_, rfl⟩

/-- Behind a header or a routine stand a routine keyword or `begin`. -/
theorem exists_goesOn {ts : List RoutineTree} (hts : ∀ t ∈ ts, t.IsPlain) (rest : List Char) :
    ∃ word more, GoesOn (RoutineTree.textOf ts ++ ("\nbegin".toList ++ ' ' :: rest)) word more := by
  cases ts with
  | nil => exact ⟨"begin".toList, rest, rfl, by decide, by decide⟩
  | cons t ts =>
    obtain ⟨more, htext⟩ := exists_text_eq t
    have hkind := (hts t List.mem_cons_self).header.kind
    exact ⟨(tag t.header.kind).toList,
      more ++ (RoutineTree.textOf ts ++ ("\nbegin".toList ++ ' ' :: rest)),
      by simp [RoutineTree.textOf, htext], (routineKind?_tag hkind).2.1, tag_not_directive _⟩

theorem read?_text {h : Header} {word more : List Char} (hplain : h.IsPlain)
    (hafter : c.after = h.text ++ ';' :: rest) (hrest : GoesOn rest word more) :
    Declaration.read? c = some
      ⟨{ header := h
         start := c.offset
         stop := (c.advance (h.text ++ [';']) rest).offset },
        c.advance (h.text ++ [';']) rest⟩ := by
  have hsplit := splitStatement_text hplain rest
  have htext : statementText c = h.text := by rw [statementText, hafter, hsplit]
  have hpast : pastStatement c = c.advance (h.text ++ [';']) rest := by
    rw [pastStatement, statementEnd, hafter, hsplit, Cursor.next, Cursor.after_advance]
    exact Cursor.advance_advance ..
  rw [Declaration.read?, htext, Header.parse?_text hplain, hpast]
  simp only [readDirectives_of_goesOn (c := c.advance (h.text ++ [';']) rest) hrest]

theorem bodyStep_eq {v w : Word} (h : v.text = w.text) : bodyStep v = bodyStep w := by
  simp only [bodyStep, Word.lower, h]

theorem map_bodyStep_eq {us vs : List Word} (h : us.map (·.text) = vs.map (·.text)) :
    us.map bodyStep = vs.map bodyStep := by
  have hstep : bodyStep = fun w => bodyStep ⟨.ofText [], w.text, .ofText []⟩ := by
    funext w
    exact bodyStep_eq rfl
  have hcomp := congrArg (List.map fun t => bodyStep ⟨.ofText [], t, .ofText []⟩) h
  rw [List.map_map, List.map_map] at hcomp
  rw [hstep]
  exact hcomp

theorem exists_words_statements {statements : List Char}
    (hafter : c.after = ' ' :: (statements ++ [' ']) ++ rest) :
    ∃ ws, c.words = ws ++ (c.advance (' ' :: (statements ++ [' '])) rest).words ∧
      ws.map bodyStep = (words statements).map bodyStep := by
  have hlast : (' ' :: (statements ++ [' '])).getLast? = some ' ' := by
    rw [← List.cons_append, List.getLast?_concat]
  have hedge : (c.advance (' ' :: (statements ++ [' '])) rest).AtEdge := by
    left
    rw [Cursor.head?_before_advance, hlast]
    exact isIdent_space
  obtain ⟨ws, hwords, hspots⟩ := Cursor.exists_words_advance hafter (.inr hedge)
  have hspace : words [' '] = [] := words_eq_nil fun a ha => by
    rw [List.mem_singleton.mp ha, isIdent_space]
  have hfront := map_text_words_append (a := [' ']) (b := statements ++ [' ']) (.inl isIdent_space)
  have hback := map_text_words_append (a := statements) (b := [' ']) (.inr isIdent_space)
  rw [hspace, List.map_nil] at hfront hback
  have htext : ws.map (·.text) = (words (' ' :: (statements ++ [' ']))).map (·.text) := by
    rw [← map_snd_spots c.offset, ← hspots, List.map_map]
    rfl
  exact ⟨ws, hwords, map_bodyStep_eq (htext.trans (hfront.trans (hback.trans (List.append_nil _))))⟩

/-- The scan of a body stops at the `end` behind its statements when these are balanced. -/
theorem exists_scanBlock {statements : List Char}
    (hbalanced : IsBalanced ((words statements).map bodyStep))
    (hafter : c.after = ' ' :: (statements ++ [' ']) ++ ("end".toList ++ ';' :: rest)) :
    ∃ deepest, scanBlock bodyStep c =
      ⟨.closed ⟨c.advance (' ' :: (statements ++ [' '])) ("end".toList ++ ';' :: rest),
        "end".toList, c.advance (' ' :: (statements ++ [' ']) ++ "end".toList) (';' :: rest)⟩,
        deepest⟩ := by
  obtain ⟨ws, hwords, hsteps⟩ := exists_words_statements hafter
  have hsemicolon : isIdent ';' = false := by decide
  have hword : isIdentifier "end".toList = true := by decide
  obtain ⟨hne, hident⟩ := isIdent_of_isIdentifier hword
  rw [← hsteps] at hbalanced
  exact exists_scanBlock_closed hwords hbalanced hne hident hsemicolon rfl

theorem pastSemicolon_eq (hafter : c.after = ';' :: rest) :
    pastSemicolon c = c.advance [';'] rest := by
  have hskip : c.skipBlank = c := by
    rw [Cursor.skipBlank, Cursor.skipWhile, hafter, List.takeWhile_cons_of_neg (by decide),
      List.dropWhile_cons_of_neg (by decide), ← hafter, Cursor.advance_nil]
  rw [pastSemicolon, hskip, Cursor.next, hafter]
  rfl

theorem exists_readBody (top : RoutineNode) {statements : List Char}
    (hbalanced : IsBalanced ((words statements).map bodyStep))
    (hafter : c.after = ' ' :: (statements ++ [' ']) ++ ("end".toList ++ ';' :: rest)) :
    ∃ stop depth, readBody top c =
      ({ top with
          body := some ⟨c.offset, c.offset + width (' ' :: (statements ++ [' ']))⟩
          stop := stop
          unterminated := false
          maxDepth := depth },
        c.advance (' ' :: (statements ++ [' ']) ++ "end;".toList) rest) := by
  obtain ⟨deepest, hscan⟩ := exists_scanBlock hbalanced hafter
  have hstop : bodyStop (scanBlock bodyStep c) c =
      c.advance (' ' :: (statements ++ [' ']) ++ "end;".toList) rest := by
    rw [bodyStop, hscan]
    simp only
    rw [pastSemicolon_eq (Cursor.after_advance ..), Cursor.advance_advance, List.append_assoc]
    rfl
  refine ⟨(bodyStop (scanBlock bodyStep c) c).offset, deepest, ?_⟩
  rw [readBody, hstop, hscan]
  rfl

/-! ## Trees are read back -/

theorem unspaced?_eq (statements : List Char) :
    unspaced? (' ' :: (statements ++ [' '])) = some statements := by
  simp [unspaced?]

theorem getLast?_text (t : RoutineTree) : t.text.getLast? = some ';' := by
  obtain ⟨header, nested, statements⟩ := t
  have hsplit : RoutineTree.text ⟨header, nested, statements⟩ =
      (header.text ++ ';' :: (RoutineTree.textOf nested ++ ("\nbegin".toList ++
        (' ' :: (statements ++ [' ']) ++ "end".toList)))) ++ [';'] := by
    simp [RoutineTree.text]
  rw [hsplit, List.getLast?_concat]

/-- The statements are read behind the routines that are nested in the routine. -/
theorem exists_readLocals_begin (limit : Nat) (top : RoutineNode) (parents : List RoutineNode)
    {statements : List Char} (hin : c.StandsIn code)
    (hbalanced : IsBalanced ((words statements).map bodyStep))
    (hafter : c.after =
      "\nbegin".toList ++ (' ' :: (statements ++ [' ']) ++ ("end".toList ++ ';' :: rest))) :
    ∃ body stop depth, unspaced? (Span.slice body code) = some statements ∧
      readLocals limit c top parents =
        resume limit
          (c.advance ("\nbegin".toList ++ (' ' :: (statements ++ [' ']) ++ "end;".toList)) rest)
          { top with body := some body, stop := stop, unterminated := false, maxDepth := depth }
          parents := by
  have hgap : c.after = ['\n'] ++ ("begin".toList ++
      (' ' :: (statements ++ [' ']) ++ ("end".toList ++ ';' :: rest))) := hafter
  have hword : isIdentifier "begin".toList = true := by decide
  obtain ⟨hne, hident⟩ := isIdent_of_isIdentifier hword
  have hw := Cursor.nextWord?_of_after hgap isIdent_newline hne hident isIdent_space
  generalize hd : c.advance (['\n'] ++ "begin".toList)
    (' ' :: (statements ++ [' ']) ++ ("end".toList ++ ';' :: rest)) = d at hw
  have hlead : c.Leads d := hd ▸ .of_advance hafter
  have hafter' : d.after = ' ' :: (statements ++ [' ']) ++ ("end".toList ++ ';' :: rest) := by
    rw [← hd, Cursor.after_advance]
  obtain ⟨stop, depth, hbody⟩ := exists_readBody top hbalanced hafter'
  have hslice := (hin.of_leads hlead).slice_eq
    (d := d.advance (' ' :: (statements ++ [' '])) ("end".toList ++ ';' :: rest)) hafter' rfl
  refine ⟨⟨d.offset, d.offset + width (' ' :: (statements ++ [' ']))⟩, stop, depth, ?_, ?_⟩
  · exact (congrArg unspaced? hslice).trans (unspaced?_eq statements)
  · rw [readLocals_of_body hw rfl, hbody, ← hd, Cursor.advance_advance]
    rfl

/-- A reader in the declarations of a routine reads the tree, puts it into that routine, and goes on
behind it. -/
def IsRead (code : List Char) (limit : Nat) (t : RoutineTree) : Prop :=
  ∀ (c : Cursor) (rest : List Char) (top : RoutineNode) (parents : List RoutineNode),
    c.after = '\n' :: (t.text ++ rest) → c.before.head? = some ';' → c.StandsIn code →
      parents.length + 1 + t.height ≤ limit →
        ∃ r : RoutineNode, r.tree? code = some t ∧
          readLocals limit c top parents =
            readLocals limit (c.advance ('\n' :: t.text) rest) (top.push r) parents

theorem exists_readLocals_textOf (top : RoutineNode) {ts : List RoutineTree}
    (hts : ∀ t ∈ ts, IsRead code limit t)
    (hafter : c.after = RoutineTree.textOf ts ++ rest) (hbefore : c.before.head? = some ';')
    (hin : c.StandsIn code) (hlimit : parents.length + 1 + RoutineTree.heightOf ts ≤ limit) :
    ∃ rs, RoutineNode.treesOf? code rs = some ts ∧
      readLocals limit c top parents =
        readLocals limit (c.advance (RoutineTree.textOf ts) rest)
          { top with nested := top.nested ++ rs } parents := by
  -- One tree after the other is put into the routine on top, which so changes along the way.
  induction ts generalizing c top with
  | nil =>
    refine ⟨[], by rw [RoutineNode.treesOf?], ?_⟩
    rw [RoutineTree.textOf, List.nil_append] at hafter
    rw [RoutineTree.textOf, ← hafter, Cursor.advance_nil]
    cases top
    simp
  | cons t ts ih =>
    obtain ⟨ht, hts⟩ := List.forall_mem_cons.mp hts
    rw [RoutineTree.heightOf] at hlimit
    rw [RoutineTree.textOf, List.cons_append, List.append_assoc] at hafter
    obtain ⟨r, htree, hread⟩ := ht c _ top parents hafter hbefore hin (by omega)
    have hmoved : (c.advance ('\n' :: t.text) (RoutineTree.textOf ts ++ rest)).before.head? =
        some ';' := by
      rw [Cursor.head?_before_advance, List.getLast?_cons, getLast?_text]
      rfl
    obtain ⟨rs, htrees, hreads⟩ := ih (top.push r) hts (Cursor.after_advance ..) hmoved
      (hin.of_leads (.of_advance (by simpa using hafter))) (by omega)
    refine ⟨r :: rs, ?_, ?_⟩
    · rw [RoutineNode.treesOf?, htree, htrees]
      rfl
    · rw [hread, hreads, Cursor.advance_advance, RoutineTree.textOf]
      simp [RoutineNode.push]

/-- A routine is opened by its header; then what is nested in it and its statements are read. -/
theorem exists_read?_text {t : RoutineTree} (h : t.IsPlain)
    (hnested : ∀ n ∈ t.nested, IsRead code limit n) (hin : c.StandsIn code)
    (hafter : c.after = t.text ++ rest) :
    ∃ d, Declaration.read? c = some d ∧ d.isForward = false ∧
      ∀ parents : List RoutineNode, parents.length + t.height ≤ limit →
        ∃ r : RoutineNode, r.tree? code = some t ∧
          readLocals limit d.behind d.node parents =
            resume limit (c.advance t.text rest) r parents := by
  obtain @⟨header, nested, statements, hheader, hplain, hbalanced⟩ := h
  replace hnested : ∀ n ∈ nested, IsRead code limit n := hnested
  have hsplit : c.after = header.text ++ ';' :: (RoutineTree.textOf nested ++ ("\nbegin".toList ++
      ' ' :: (statements ++ [' '] ++ ("end".toList ++ ';' :: rest)))) := by
    rw [hafter]
    simp [RoutineTree.text]
  obtain ⟨word, more, hgoes⟩ := exists_goesOn hplain (statements ++ [' '] ++
    ("end".toList ++ ';' :: rest))
  refine ⟨_, read?_text hheader hsplit hgoes, rfl, fun parents hlimit => ?_⟩
  simp only
  generalize hd : c.advance (header.text ++ [';']) (RoutineTree.textOf nested ++
    ("\nbegin".toList ++ ' ' :: (statements ++ [' '] ++ ("end".toList ++ ';' :: rest)))) = d
  have hlead : c.Leads d := hd ▸ .of_advance (by simpa using hsplit)
  have hbefore : d.before.head? = some ';' := by
    rw [← hd, Cursor.head?_before_advance, List.getLast?_concat]
    rfl
  have hafter' : d.after = RoutineTree.textOf nested ++ ("\nbegin".toList ++
      (' ' :: (statements ++ [' ']) ++ ("end".toList ++ ';' :: rest))) := by
    rw [← hd, Cursor.after_advance, List.cons_append]
  rw [RoutineTree.height] at hlimit
  have hlimit' : parents.length + 1 + RoutineTree.heightOf nested ≤ limit := by omega
  obtain ⟨rs, htrees, hreads⟩ := exists_readLocals_textOf
    { header, start := c.offset, stop := d.offset } hnested hafter' hbefore (hin.of_leads hlead)
    hlimit'
  obtain ⟨body, stop, depth, hstatements, hbody⟩ := exists_readLocals_begin limit
    { header, start := c.offset, stop := d.offset, nested := rs } parents
    ((hin.of_leads hlead).of_leads (.of_advance hafter')) hbalanced (Cursor.after_advance ..)
  refine ⟨{ header, start := c.offset, stop, body := some body, maxDepth := depth, nested := rs },
    ?_, (hreads.trans hbody).trans ?_⟩
  · rw [RoutineNode.tree?]
    simp [hstatements, htrees]
  · rw [← hd, Cursor.advance_advance, Cursor.advance_advance, RoutineTree.text]
    simp

theorem isRoutineStart_of_head? (h : c.before.head? = some ';') (rest : List Char) :
    isRoutineStart (c.advance ['\n'] rest) = true := by
  obtain ⟨seen, hseen⟩ := List.head?_eq_some_iff.mp h
  have hlast : (c.advance ['\n'] rest).lastSignificant? = some ';' := by
    rw [Cursor.lastSignificant?, Cursor.advance, hseen]
    rfl
  rw [isRoutineStart, hlast]
  rfl

theorem localStep_of_keyword {w : Word} {k : RoutineKind} (hk : k ≠ .method)
    (htext : w.text = (tag k).toList) (hstart : isRoutineStart w.first = true) :
    localStep w = .header := by
  have hlower : w.lower = tag k := by
    rw [Word.lower, htext]
    cases k <;> decide
  rw [localStep, hlower]
  cases k with
  | method => contradiction
  | _ => simp [Tagged.tag, routineKind?, hstart]

/-- The step from what is nested in a routine to the routine. -/
theorem isRead_of_nested {t : RoutineTree} (h : t.IsPlain)
    (hnested : ∀ n ∈ t.nested, IsRead code limit n) : IsRead code limit t := by
  intro c rest top parents hafter hbefore hin hlimit
  obtain ⟨more, htext⟩ := exists_text_eq t
  have hkeyword := routineKind?_tag h.header.kind
  obtain ⟨hne, hident⟩ := isIdent_of_isIdentifier hkeyword.2.1
  have hgap : c.after = ['\n'] ++ ((tag t.header.kind).toList ++ ' ' :: (more ++ rest)) := by
    rw [hafter, htext]
    simp
  have hw := Cursor.nextWord?_of_after hgap isIdent_newline hne hident isIdent_space
  have hfirst : (tag t.header.kind).toList ++ ' ' :: (more ++ rest) = t.text ++ rest := by
    rw [htext]
    simp
  obtain ⟨d, hread, hforward, hbody⟩ := exists_read?_text (c := c.advance ['\n'] (t.text ++ rest)) h
    hnested (hin.of_leads (.of_advance hafter)) rfl
  obtain ⟨r, htree, hr⟩ := hbody (top :: parents) (by simpa using hlimit)
  rw [hfirst] at hw
  have hpos : 0 < t.height := by
    cases t
    simp [RoutineTree.height]
  refine ⟨r, htree, ?_⟩
  rw [readLocals_of_header hw
    (localStep_of_keyword h.header.kind rfl (isRoutineStart_of_head? hbefore _)) hread hforward
    (by omega), hr, resume, Cursor.advance_advance]
  rfl

theorem isRead_of_isPlain {t : RoutineTree} (h : t.IsPlain) (code : List Char) (limit : Nat) :
    IsRead code limit t := by
  induction h with
  | intro hheader hnested hbalanced ih =>
    exact isRead_of_nested (.intro hheader hnested hbalanced) ih

/-- A routine that is written out is read back, wherever its text stands, when no more routines lie
in each other than may be open at once. -/
theorem readRoutines_text {t : RoutineTree} (h : t.IsPlain) {maxNesting : Nat}
    (hheight : t.height ≤ max 1 maxNesting) (front rest : List Char) :
    (readRoutines maxNesting (.within (front ++ (t.text ++ rest)) (width front)
      (width (front ++ (t.text ++ rest))))).map (·.tree? (front ++ (t.text ++ rest))) = [some t] := by
  have hwithin := Cursor.within_eq (a := front) (m := t.text ++ rest) (b := [])
  rw [List.append_nil, ← width_append] at hwithin
  have hin : (Cursor.mk (width front) front.reverse (t.text ++ rest)).StandsIn
      (front ++ (t.text ++ rest)) := ⟨(width_reverse front).symm, by simp [Cursor.text]⟩
  obtain ⟨d, hread, hforward, hbody⟩ := exists_read?_text h
    (fun n hn => isRead_of_isPlain (h.nested n hn) _ (max 1 maxNesting)) hin rfl
  obtain ⟨r, htree, hr⟩ := hbody [] (by simpa using hheight)
  rw [hwithin, readRoutines, hread]
  simp [hforward, hr, resume, htree]

/-- A function with parameters and a procedure nested in it, with blocks in both bodies. -/
def orderTotal : RoutineTree where
  header :=
    { kind := .function
      owner := some "TOrder"
      name := "Total"
      params := [⟨"rate", some "Double", some "const"⟩, ⟨"lines", some "array of TLine", none⟩]
      returnType := some "Currency"
      isClassLevel := false }
  nested :=
    [{ header :=
        { kind := .procedure
          owner := none
          name := "Add"
          params := []
          returnType := none
          isClassLevel := false }
       nested := []
       statements := "if rate > 0 then begin Inc(n) end".toList }]
  statements := "case n of 1: try Add finally Save end end; Result := n".toList

theorem isPlain_orderTotal : orderTotal.IsPlain := by
  have hadd : RoutineTree.IsPlain (orderTotal.nested.head (by decide)) :=
    .intro ⟨by decide, rfl, nofun, by decide, nofun, nofun⟩ nofun (by decide +kernel)
  refine .intro ⟨by decide, rfl, ?_, by decide, ?_, ?_⟩ ?_ (by decide +kernel)
  · rintro o ⟨⟩
    exact ⟨by decide, by decide⟩
  · refine List.forall_mem_cons.mpr ⟨⟨by decide, ?_, ?_⟩,
      List.forall_mem_singleton.mpr ⟨by decide, ?_, nofun⟩⟩
    · rintro t ⟨⟩
      exact ⟨by decide, by decide, by decide⟩
    · rintro m ⟨⟩
      decide
    · rintro t ⟨⟩
      exact ⟨by decide, by decide +kernel, by decide⟩
  · rintro t ⟨⟩
    exact ⟨by decide, by decide, by decide⟩
  · exact List.forall_mem_singleton.mpr hadd

theorem readRoutines_text_orderTotal :
    orderTotal.IsPlain ∧ orderTotal.height ≤ max 1 2 ∧
      (readRoutines 2 (.within ("unit Orders; ".toList ++ (orderTotal.text ++ " end.".toList))
        (width "unit Orders; ".toList)
        (width ("unit Orders; ".toList ++ (orderTotal.text ++ " end.".toList))))).map
          (·.tree? ("unit Orders; ".toList ++ (orderTotal.text ++ " end.".toList))) =
        [some orderTotal] := by
  have hheight : orderTotal.height ≤ max 1 2 := by decide
  exact ⟨isPlain_orderTotal, hheight, readRoutines_text isPlain_orderTotal hheight _ _⟩

end MigrationAudit.Pascal
