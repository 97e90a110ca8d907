import MigrationAudit.Pascal.Unit
import MigrationAudit.Proofs.Text.Blocks

/-!
# Routines laid out in a text

Routines are laid out between two cursors when each has its header, the routines nested in it and
its body one behind the other. What is read is always laid out: this holds of a finished forest, and
while routines are still open on the stack it holds of what each of them has so far.
-/

namespace MigrationAudit.Pascal

open Text

/-! ## Statements, directives and bodies -/

theorem splitStatement_snd (depth : Nat) (cs : List Char) :
    (splitStatement depth cs).2 = [] ∨ ∃ rest, (splitStatement depth cs).2 = ';' :: rest := by
  fun_induction splitStatement depth cs with
  | case1 => exact .inl rfl
  | case2 depth c cs h =>
    right
    exact ⟨cs, by simp_all⟩
  | case3 depth c cs h depth' ih => exact ih

theorem leadsWhole_pastStatement (c : Cursor) : c.LeadsWhole (pastStatement c) := by
  refine ⟨leads_pastStatement c, .inr ?_⟩
  rcases splitStatement_snd 0 c.after with h | ⟨rest, h⟩
  · exact .inr (by simp [pastStatement, statementEnd, Cursor.next, h])
  · exact Cursor.atEdge_next (c := statementEnd c) h (by decide)

theorem leadsWhole_adjacentWord? {c : Cursor} {w : Word} (h : c.adjacentWord? = some w) :
    c.LeadsWhole w.first := by
  simp only [Cursor.adjacentWord?] at h
  split at h
  · simp at h
  · obtain rfl := Option.some.inj h
    exact Cursor.leadsWhole_skipWhile isIdent_of_isBlank c

theorem leadsWhole_readDirectives (c : Cursor) : c.LeadsWhole (readDirectives c).2 := by
  fun_induction readDirectives c with
  | case1 => exact .refl _
  | case2 c w h hd more rest heq ih =>
    rw [heq] at ih
    exact ((leadsWhole_adjacentWord? h).trans (leadsWhole_pastStatement _)).trans ih
  | case3 => exact .refl _

theorem leadsWhole_pastSemicolon (c : Cursor) : c.LeadsWhole (pastSemicolon c) := by
  have hskip : c.LeadsWhole c.skipBlank := Cursor.leadsWhole_skipWhile isIdent_of_isBlank c
  unfold pastSemicolon
  split
  · next h => exact hskip.trans ⟨Cursor.leads_next _, .inr (Cursor.atEdge_next h (by decide))⟩
  · exact .refl c

theorem offset_lt_pastStatement {c : Cursor} (h : statementText c ≠ []) :
    c.offset < (pastStatement c).offset := by
  have hwidth := width_pos h
  have hnext := (Cursor.leads_next (statementEnd c)).offset_le
  simp only [statementEnd, Cursor.offset_advance] at hnext
  simp only [statementText] at hwidth
  exact Nat.lt_of_lt_of_le (by omega) hnext

theorem statementText_ne_nil {c : Cursor} {h : Header}
    (hparse : Header.parse? (statementText c) = some h) : statementText c ≠ [] := by
  rintro hnil
  rw [hnil] at hparse
  simp [Header.parse?, leadingWord?, trimStart] at hparse

/-- A routine with nothing but a header and directives, which stand between two cursors. -/
structure RoutineNode.Announced (r : RoutineNode) (c d : Cursor) : Prop where
  start_eq : r.start = c.offset
  stop_eq : r.stop = d.offset
  body_eq : r.body = none
  leadsWhole : c.LeadsWhole d
  offset_lt : c.offset < d.offset

theorem announced_read? {c : Cursor} {d : Declaration} (h : Declaration.read? c = some d) :
    d.node.Announced c d.behind ∧ d.node.nested = [] := by
  unfold Declaration.read? at h
  split at h
  · simp at h
  · next header hparse =>
    obtain rfl := Option.some.inj h
    have hpast := offset_lt_pastStatement (statementText_ne_nil hparse)
    have hdirectives := leadsWhole_readDirectives (pastStatement c)
    exact ⟨⟨rfl, rfl, rfl, (leadsWhole_pastStatement c).trans hdirectives,
      Nat.lt_of_lt_of_le hpast hdirectives.offset_le⟩, rfl⟩

/-- Where the statements of a body end, and where the routine ends behind them. -/
theorem exists_of_readBody (r : RoutineNode) (c : Cursor) :
    ∃ d, c.LeadsWhole d ∧ (readBody r c).1.body = some ⟨c.offset, d.offset⟩ ∧
      d.LeadsWhole (readBody r c).2 := by
  simp only [readBody, bodySpan, bodyStop]
  split
  · next w h =>
    obtain ⟨hfirst, hbehind⟩ := leadsWhole_of_scanBlock_closed h
    exact ⟨w.first, hfirst, by simp [Word.start], hbehind.trans (leadsWhole_pastSemicolon _)⟩
  · next w h =>
    exact ⟨w.first, (leadsWhole_of_scanBlock_aborted h).1, by simp [Word.start], .refl _⟩
  · next h => exact ⟨c.toEnd, Cursor.leadsWhole_toEnd c, by simp, .refl _⟩

theorem leadsWhole_readBody (r : RoutineNode) (c : Cursor) : c.LeadsWhole (readBody r c).2 := by
  obtain ⟨d, hbody, -, hclosing⟩ := exists_of_readBody r c
  exact hbody.trans hclosing

/-! ## Steps of the reader -/

section Steps

variable {limit : Nat} {c : Cursor} {top : RoutineNode} {parents : List RoutineNode} {w : Word}

theorem readLocals_of_none (hw : c.nextWord? = none) :
    readLocals limit c top parents = unfinished (top :: parents) := by
  rw [readLocals]
  split <;> simp_all

theorem readLocals_of_sectionEnd (hw : c.nextWord? = some w) (hstep : localStep w = .sectionEnd) :
    readLocals limit c top parents = unfinished (top :: parents) := by
  rw [readLocals]
  split <;> simp_all

theorem readLocals_of_other (hw : c.nextWord? = some w) (hstep : localStep w = .other) :
    readLocals limit c top parents = readLocals limit w.behind top parents := by
  rw [readLocals]
  split <;> simp_all

theorem readLocals_of_keyword (hw : c.nextWord? = some w) (hstep : localStep w = .header) :
    readLocals limit c top parents =
      (Declaration.read? w.first).elim (readLocals limit w.behind top parents) fun d =>
        if d.isForward then readLocals limit d.behind (top.push d.node) parents
        else if limit ≤ parents.length + 1 then
          readLocals limit d.behind { top.push d.node with nestingCapped := true } parents
        else readLocals limit d.behind d.node (top :: parents) := by
  rw [readLocals]
  split
  next hnone => simp [hw] at hnone
  next w' hw' =>
    obtain rfl : w' = w := Option.some.inj (hw'.symm.trans hw)
    rw [hstep]
    simp only
    split
    next hnone => rw [hnone, Option.elim_none]
    next d hd => rw [hd, Option.elim_some]

/-- What is read on behind a routine that is finished at the cursor. -/
def resume (limit : Nat) (c : Cursor) (r : RoutineNode) : List RoutineNode → List RoutineNode
  | [] => [r]
  | parent :: parents => readLocals limit c (parent.push r) parents

theorem readLocals_of_body (hw : c.nextWord? = some w) (hstep : localStep w = .body) :
    readLocals limit c top parents =
      resume limit (readBody top w.behind).2 (readBody top w.behind).1 parents := by
  cases parents with
  | nil =>
    rw [readLocals, resume]
    split <;> simp_all
  | cons parent parents =>
    rw [readLocals, resume]
    split <;> simp_all

end Steps

/-! ## Finished routines -/

/-- The routines stand one behind the other between two cursors. One without a body has nothing in
it; one with a body has the routines nested in it between its header and the body. -/
inductive Laid : Cursor → List RoutineNode → Cursor → Prop
  | nil {c d : Cursor} (h : c.LeadsWhole d) : Laid c [] d
  | declaration {c d e f : Cursor} {r : RoutineNode} {rest : List RoutineNode}
      (before : c.LeadsWhole d) (header : r.Announced d e) (nested : r.nested = [])
      (behind : Laid e rest f) : Laid c (r :: rest) f
  | implementation {c d e f g h i : Cursor} {r : RoutineNode} {rest : List RoutineNode}
      (before : c.LeadsWhole d) (start_eq : r.start = d.offset) (header : d.LeadsWhole e)
      (offset_lt : d.offset < e.offset) (nested : Laid e r.nested f)
      (body_eq : r.body = some ⟨f.offset, g.offset⟩) (body : f.LeadsWhole g)
      (closing : g.LeadsWhole h) (stop_eq : r.stop = h.offset) (behind : Laid h rest i) :
      Laid c (r :: rest) i

namespace Laid

variable {c d e : Cursor} {forest more : List RoutineNode}

theorem leadsWhole (h : Laid c forest d) : c.LeadsWhole d := by
  induction h with
  | nil h => exact h
  | declaration before header _ _ ih => exact (before.trans header.leadsWhole).trans ih
  | implementation before _ header _ _ _ body closing _ _ ihnested ih =>
    exact ((((before.trans header).trans ihnested).trans body).trans closing).trans ih

theorem behind (h : Laid c forest d) (hlead : d.LeadsWhole e) : Laid c forest e := by
  induction h with
  | nil h => exact .nil (h.trans hlead)
  | declaration before header nested _ ih => exact .declaration before header nested (ih hlead)
  | implementation before start_eq header offset_lt nested body_eq body closing stop_eq _ _ ih =>
    exact .implementation before start_eq header offset_lt nested body_eq body closing stop_eq
      (ih hlead)

theorem ahead (hlead : c.LeadsWhole d) (h : Laid d forest e) : Laid c forest e := by
  cases h with
  | nil h => exact .nil (hlead.trans h)
  | declaration before header nested behind =>
    exact .declaration (hlead.trans before) header nested behind
  | implementation before start_eq header offset_lt nested body_eq body closing stop_eq behind =>
    exact .implementation (hlead.trans before) start_eq header offset_lt nested body_eq body closing
      stop_eq behind

theorem append (h : Laid c forest d) (k : Laid d more e) : Laid c (forest ++ more) e := by
  induction h with
  | nil h => exact k.ahead h
  | declaration before header nested _ ih => exact .declaration before header nested (ih k)
  | implementation before start_eq header offset_lt nested body_eq body closing stop_eq _ _ ih =>
    exact .implementation before start_eq header offset_lt nested body_eq body closing stop_eq
      (ih k)

end Laid

/-! ## Open routines -/

/-- The routines on the stack, innermost first, are open at a cursor: each has its header and what
is nested in it so far behind those around it. -/
inductive Opened (c : Cursor) : List RoutineNode → Cursor → Prop
  | nil {d : Cursor} (h : c.LeadsWhole d) : Opened c [] d
  | cons {d e f g : Cursor} {r : RoutineNode} {parents : List RoutineNode}
      (around : Opened c parents d) (before : d.LeadsWhole e) (header : r.Announced e f)
      (nested : Laid f r.nested g) : Opened c (r :: parents) g

namespace Opened

variable {c d e : Cursor} {top : RoutineNode} {parents : List RoutineNode}

theorem move (h : Opened c parents d) (hlead : d.LeadsWhole e) : Opened c parents e := by
  cases h with
  | nil h => exact .nil (h.trans hlead)
  | cons around before header nested => exact .cons around before header (nested.behind hlead)

/-- What is finished behind the cursor is put into the innermost routine. -/
theorem push {child : RoutineNode} (h : Opened c (top :: parents) d) (hchild : Laid d [child] e) :
    Opened c (top.push child :: parents) e := by
  cases h with
  | cons around before header nested =>
    refine .cons around before ⟨header.start_eq, header.stop_eq, header.body_eq, header.leadsWhole,
      header.offset_lt⟩ (nested.append hchild)

theorem cap (h : Opened c (top :: parents) d) :
    Opened c ({ top with nestingCapped := true } :: parents) d := by
  cases h with
  | cons around before header nested =>
    exact .cons around before ⟨header.start_eq, header.stop_eq, header.body_eq, header.leadsWhole,
      header.offset_lt⟩ nested

/-- A body finishes the innermost routine. -/
theorem exists_finished (h : Opened c (top :: parents) d) :
    ∃ e, Opened c parents e ∧ Laid e [(readBody top d).1] (readBody top d).2 := by
  cases h with
  | cons around before header nested =>
    obtain ⟨g, hbody, hspan, hclosing⟩ := exists_of_readBody top d
    exact ⟨_, around, .implementation before header.start_eq header.leadsWhole header.offset_lt
      nested hspan hbody hclosing rfl (.nil (.refl _))⟩

/-- Open routines that get no body stand beside what is nested in them. -/
theorem laid_unfinished (h : Opened c parents d) : Laid c (unfinished parents) d := by
  induction h with
  | nil h => exact .nil h
  | cons around before header nested ih =>
    rw [unfinished, List.reverse_cons, List.flatMap_append, List.flatMap_singleton]
    exact ih.append (.declaration before ⟨header.start_eq, header.stop_eq, header.body_eq,
      header.leadsWhole, header.offset_lt⟩ rfl nested)

end Opened

theorem laid_of_read? {c : Cursor} {w : Word} {d : Declaration} (hw : c.nextWord? = some w)
    (hd : Declaration.read? w.first = some d) : Laid c [d.node] d.behind := by
  obtain ⟨hheader, hnested⟩ := announced_read? hd
  exact .declaration (Cursor.leadsWhole_nextWord? hw).1 hheader hnested (.nil (.refl _))

/-- Reading on from a stack of open routines lays out a forest. -/
theorem exists_laid_readLocals {c d : Cursor} {top : RoutineNode} {parents : List RoutineNode}
    (limit : Nat) (h : Opened c (top :: parents) d) :
    ∃ e, Laid c (readLocals limit d top parents) e ∧ d.LeadsWhole e := by
  -- Each step leaves the stack open at the cursor that it moves to, until the stack is empty or
  -- is given up.
  fun_induction readLocals limit d top parents with
  | case1 d top parents => exact ⟨d, h.laid_unfinished, .refl d⟩
  | case2 d top w hw hstep =>
    have hword := Cursor.leadsWhole_behind hw
    obtain ⟨e, hopened, hlaid⟩ := (h.move hword).exists_finished
    cases hopened with
    | nil hahead => exact ⟨_, hlaid.ahead hahead, hword.trans (leadsWhole_readBody top _)⟩
  | case3 d top w hw hstep parent parents ih =>
    have hword := Cursor.leadsWhole_behind hw
    obtain ⟨e, hopened, hlaid⟩ := (h.move hword).exists_finished
    obtain ⟨f, hforest, hlead⟩ := ih (hopened.push hlaid)
    exact ⟨f, hforest, (hword.trans (leadsWhole_readBody top _)).trans hlead⟩
  | case4 d top parents => exact ⟨d, h.laid_unfinished, .refl d⟩
  | case5 d top parents w hw hstep hd ih | case9 d top parents w hw hstep ih =>
    have hword := Cursor.leadsWhole_behind hw
    obtain ⟨f, hforest, hlead⟩ := ih (h.move hword)
    exact ⟨f, hforest, hword.trans hlead⟩
  | case6 d top parents w hw hstep decl hd hforward ih =>
    have hlaid := laid_of_read? hw hd
    obtain ⟨f, hforest, hlead⟩ := ih (h.push hlaid)
    exact ⟨f, hforest, hlaid.leadsWhole.trans hlead⟩
  | case7 d top parents w hw hstep decl hd hforward hlimit ih =>
    have hlaid := laid_of_read? hw hd
    obtain ⟨f, hforest, hlead⟩ := ih (h.push hlaid).cap
    exact ⟨f, hforest, hlaid.leadsWhole.trans hlead⟩
  | case8 d top parents w hw hstep decl hd hforward hlimit ih =>
    obtain ⟨hheader, hnested⟩ := announced_read? hd
    have hfirst := (Cursor.leadsWhole_nextWord? hw).1
    have hopened : Opened c (decl.node :: top :: parents) decl.behind :=
      .cons h hfirst hheader (by rw [hnested]; exact .nil (.refl _))
    obtain ⟨f, hforest, hlead⟩ := ih hopened
    exact ⟨f, hforest, (hfirst.trans hheader.leadsWhole).trans hlead⟩

/-- What is read at a cursor is laid out behind it. -/
theorem exists_laid_readRoutines (maxNesting : Nat) (c : Cursor) :
    ∃ d, Laid c (readRoutines maxNesting c) d := by
  unfold readRoutines
  split
  · exact ⟨c, .nil (.refl c)⟩
  · next decl hd =>
    obtain ⟨hheader, hnested⟩ := announced_read? hd
    split
    · exact ⟨_, .declaration (.refl c) hheader hnested (.nil (.refl _))⟩
    · have hopened : Opened c [decl.node] decl.behind :=
        .cons (.nil (.refl c)) (.refl c) hheader (by rw [hnested]; exact .nil (.refl _))
      obtain ⟨d, hforest, -⟩ := exists_laid_readLocals (max 1 maxNesting) hopened
      exact ⟨d, hforest⟩

end MigrationAudit.Pascal
