import MigrationAudit.Proofs.Pascal.Laminar
import MigrationAudit.Proofs.Pascal.Declarations
import MigrationAudit.Proofs.Text.Pieces

/-!
# Where the headers of an implementation stand

Every routine of an implementation, at whatever depth, has been read from a header that stands in the
text, behind the start of the implementation but for the word `class` in front of it.
-/

namespace MigrationAudit.Pascal

open Text

variable {code : List Char} {c d : Cursor} {n : Nat}

/-! ## The word in front of a header -/

theorem standsIn_back (h : c.StandsIn code) : (c.back n).StandsIn code := by
  fun_induction Cursor.back n c with
  | case1 n offset a before after ih =>
    refine ih ⟨?_, ?_⟩
    · have hoffset : offset = a.utf8Size + width before := h.offset_eq
      rw [hoffset, Nat.add_sub_cancel_left]
    · have htext := h.text_prefix
      simpa [Cursor.text] using htext
  | case2 => exact h

theorem before_back {moved before : List Char} (h : c.before = moved ++ before) :
    (c.back moved.length).before = before := by
  induction moved generalizing c with
  | nil => simpa [Cursor.back] using h
  | cons a moved ih =>
    obtain ⟨offset, seen, after⟩ := c
    obtain rfl : seen = a :: (moved ++ before) := h
    exact ih rfl

theorem sizes_of_lowered {cs : List Char} {s : String} (h : lowered cs = s) :
    cs.length = s.toList.length ∧ width cs = width s.toList := by
  rw [← h, lowered, String.toList_ofList, width_lowerLatin, lowerLatin, List.length_map]
  exact ⟨rfl, rfl⟩

/-- The word `class` in front of a header stands in the text, and reaches at most by its five letters
over a place that no white space is in front of. -/
theorem of_classPrefix? (h : classPrefix? c = some d) (hc : c.StandsIn code) :
    d.StandsIn code ∧ ∀ e : Cursor, e.StandsIn code → e.Leads c →
      e.before.head?.any isBlank = false → e.offset ≤ d.offset + 5 := by
  simp only [classPrefix?] at h
  split at h
  · next hword =>
    obtain rfl := Option.some.inj h
    obtain ⟨hword, -⟩ := Bool.and_eq_true_iff.mp hword
    have hstands := standsIn_back (n := (c.before.takeWhile isBlank).length + 5) hc
    refine ⟨hstands, fun e he hlead hblank => ?_⟩
    generalize hblanks : c.before.takeWhile isBlank = blanks at *
    generalize hletters : (c.before.dropWhile isBlank).take 5 = letters at *
    obtain ⟨hlength, hwidth⟩ : letters.length = 5 ∧ width letters = 5 :=
      sizes_of_lowered (beq_iff_eq.mp hword)
    have hbefore : c.before = (blanks ++ letters) ++ (c.before.dropWhile isBlank).drop 5 := by
      rw [← hletters, List.append_assoc, List.take_append_drop, ← hblanks,
        List.takeWhile_append_dropWhile]
    have hd := before_back hbefore
    rw [List.length_append, hlength] at hd
    obtain ⟨moved, hafter, hmoved⟩ := hlead
    -- what is moved over begins with the white space in front of the header
    have hsplit : c.before = moved.reverse ++ e.before := by
      rw [hmoved, Cursor.advance, List.reverseAux_eq]
    have hfront : blanks <+: moved.reverse := by
      rw [← hblanks, hsplit]
      exact takeWhile_append_prefix hblank
    obtain ⟨more, hmore⟩ := hfront
    have hle := congrArg width hmore
    have hoffset := congrArg width hbefore
    have hsplit := congrArg width hsplit
    rw [width_append] at hle
    rw [width_append, width_append, hwidth] at hoffset
    rw [width_append] at hsplit
    rw [he.offset_eq, hstands.offset_eq, hd]
    omega
  · simp at h

/-! ## Headers of routines -/

theorem RoutineNode.exists_of_mem_descendantsOf {r : RoutineNode} {forest : List RoutineNode}
    (h : r ∈ RoutineNode.descendantsOf forest) :
    ∃ k ∈ forest, r = k ∨ r ∈ RoutineNode.descendantsOf k.nested := by
  induction forest with
  | nil => simp at h
  | cons k forest ih =>
    rw [RoutineNode.descendantsOf_cons, List.mem_cons, List.mem_append] at h
    rcases h with rfl | h | h
    · exact ⟨r, List.mem_cons_self, .inl rfl⟩
    · exact ⟨k, List.mem_cons_self, .inr h⟩
    · obtain ⟨m, hm, h⟩ := ih h
      exact ⟨m, List.mem_cons_of_mem k hm, h⟩

/-- The routine and all that is nested in it have their headers in the text, at or behind a
position. -/
inductive IsHeaded (code : List Char) (n : Nat) : RoutineNode → Prop
  | intro {r : RoutineNode} (d : Cursor) (stands : d.StandsIn code) (le : n ≤ d.offset)
      (start_eq : r.start = d.offset) (parses : Header.parse? (statementText d) = some r.header)
      (nested : ∀ m ∈ r.nested, IsHeaded code n m) : IsHeaded code n r

namespace IsHeaded

variable {r child : RoutineNode} {forest : List RoutineNode}

theorem push (h : IsHeaded code n r) (hchild : IsHeaded code n child) :
    IsHeaded code n (r.push child) := by
  obtain ⟨d, hstands, hle, hstart, hparse, hnested⟩ := h
  exact ⟨d, hstands, hle, hstart, hparse,
    List.forall_mem_append.mpr ⟨hnested, List.forall_mem_singleton.mpr hchild⟩⟩

theorem cap (h : IsHeaded code n r) : IsHeaded code n { r with nestingCapped := true } := by
  obtain ⟨d, hstands, hle, hstart, hparse, hnested⟩ := h
  exact ⟨d, hstands, hle, hstart, hparse, hnested⟩

theorem readBody (h : IsHeaded code n r) (c : Cursor) : IsHeaded code n (readBody r c).1 := by
  obtain ⟨d, hstands, hle, hstart, hparse, hnested⟩ := h
  exact ⟨d, hstands, hle, hstart, hparse, hnested⟩

theorem unfinished (h : ∀ r ∈ forest, IsHeaded code n r) :
    ∀ r ∈ unfinished forest, IsHeaded code n r := by
  intro r hr
  obtain ⟨m, hm, hr⟩ := List.mem_flatMap.mp hr
  obtain ⟨d, hstands, hle, hstart, hparse, hnested⟩ := h m (List.mem_reverse.mp hm)
  rcases List.mem_cons.mp hr with rfl | hr
  · exact ⟨d, hstands, hle, hstart, hparse, List.forall_mem_nil _⟩
  · exact hnested r hr

theorem read? {d : Declaration} (hc : c.StandsIn code) (hle : n ≤ c.offset)
    (h : Declaration.read? c = some d) :
    IsHeaded code n d.node ∧ d.behind.StandsIn code ∧ n ≤ d.behind.offset := by
  obtain ⟨hheader, -⟩ := announced_read? h
  have hlead := hheader.leadsWhole.leads
  refine ⟨?_, hc.of_leads hlead, hle.trans hlead.offset_le⟩
  unfold Declaration.read? at h
  split at h
  · simp at h
  · next header hparse =>
    obtain rfl := Option.some.inj h
    exact ⟨c, hc, hle, rfl, hparse, List.forall_mem_nil _⟩

theorem readLocals (limit : Nat) {c : Cursor} (hc : c.StandsIn code) (hle : n ≤ c.offset)
    {top : RoutineNode} {parents : List RoutineNode}
    (h : ∀ r ∈ top :: parents, IsHeaded code n r) :
    ∀ r ∈ readLocals limit c top parents, IsHeaded code n r := by
  have hword : ∀ {c : Cursor} {w : Word}, c.StandsIn code → n ≤ c.offset → c.nextWord? = some w →
      (w.first.StandsIn code ∧ n ≤ w.first.offset) ∧ w.behind.StandsIn code ∧ n ≤ w.behind.offset :=
    fun hc hle hw =>
      have hlead := Cursor.leads_nextWord? hw
      have hbehind := hlead.1.trans hlead.2
      ⟨⟨hc.of_leads hlead.1, hle.trans hlead.1.offset_le⟩, hc.of_leads hbehind,
        hle.trans hbehind.offset_le⟩
  fun_induction Pascal.readLocals limit c top parents with
  | case1 => exact unfinished h
  | case2 c top w =>
    exact List.forall_mem_singleton.mpr ((h top List.mem_cons_self).readBody _)
  | case3 c top w hw hstep parent parents ih =>
    rw [List.forall_mem_cons, List.forall_mem_cons] at h
    obtain ⟨-, hbehind, hle⟩ := hword hc hle hw
    have hbody := leads_readBody top w.behind
    exact ih (hbehind.of_leads hbody) (hle.trans hbody.offset_le)
      (List.forall_mem_cons.mpr ⟨h.2.1.push (h.1.readBody _), h.2.2⟩)
  | case4 => exact unfinished h
  | case5 _ _ _ _ hw _ _ ih | case9 _ _ _ _ hw _ ih =>
    obtain ⟨-, hbehind, hle⟩ := hword hc hle hw
    exact ih hbehind hle h
  | case6 c top parents w hw hstep d hd hforward ih =>
    rw [List.forall_mem_cons] at h
    obtain ⟨⟨hfirst, hle⟩, -⟩ := hword hc hle hw
    obtain ⟨hnode, hbehind, hle⟩ := read? hfirst hle hd
    exact ih hbehind hle (List.forall_mem_cons.mpr ⟨h.1.push hnode, h.2⟩)
  | case7 c top parents w hw hstep d hd hforward hlimit ih =>
    rw [List.forall_mem_cons] at h
    obtain ⟨⟨hfirst, hle⟩, -⟩ := hword hc hle hw
    obtain ⟨hnode, hbehind, hle⟩ := read? hfirst hle hd
    exact ih hbehind hle (List.forall_mem_cons.mpr ⟨(h.1.push hnode).cap, h.2⟩)
  | case8 c top parents w hw hstep d hd hforward hlimit ih =>
    obtain ⟨⟨hfirst, hle⟩, -⟩ := hword hc hle hw
    obtain ⟨hnode, hbehind, hle⟩ := read? hfirst hle hd
    exact ih hbehind hle (List.forall_mem_cons.mpr ⟨hnode, h⟩)

theorem readRoutines (maxNesting : Nat) (hc : c.StandsIn code) (hle : n ≤ c.offset) :
    ∀ r ∈ readRoutines maxNesting c, IsHeaded code n r := by
  unfold Pascal.readRoutines
  split
  · exact List.forall_mem_nil _
  · next d hd =>
    obtain ⟨hnode, hbehind, hle⟩ := read? hc hle hd
    split
    · exact List.forall_mem_singleton.mpr hnode
    · exact readLocals _ hbehind hle (List.forall_mem_singleton.mpr hnode)

/-- The run over an implementation. A position that its routines keep behind is left by the five
letters of the word `class`, when no white space is in front of the implementation. -/
theorem implementationRoutines (maxNesting : Nat) (skipped : List Span) {e c : Cursor}
    (he : e.StandsIn code)
    (hn : n = 0 ∨ e.before.head?.any isBlank = false ∧ n + 5 ≤ e.offset) (hlead : e.Leads c) :
    ∀ r ∈ implementationRoutines maxNesting skipped c, IsHeaded code n r := by
  fun_induction Pascal.implementationRoutines maxNesting skipped c with
  | case1 => exact List.forall_mem_nil _
  | case2 c w hw m hstep ih =>
    obtain ⟨hfirst, hbehind⟩ := Cursor.leads_nextWord? hw
    exact ih (((hlead.trans hfirst).trans hbehind).trans (Cursor.leads_seek ..))
  | case3 c w hw hstep ih =>
    obtain ⟨hfirst, hbehind⟩ := Cursor.leads_nextWord? hw
    exact ih ((hlead.trans hfirst).trans hbehind)
  | case4 c w hw hstep found ih =>
    obtain ⟨hfirst, hbehind⟩ := Cursor.leads_nextWord? hw
    have hahead := hlead.trans hfirst
    refine List.forall_mem_append.mpr
      ⟨?_, ih ((hahead.trans hbehind).trans (Cursor.leads_seek ..))⟩
    cases hclass : classPrefix? w.first with
    | none =>
      simp only [found, hclass, Option.getD_none]
      refine readRoutines _ (he.of_leads hahead) ?_
      have hle := hahead.offset_le
      rcases hn with rfl | ⟨-, hn⟩ <;> omega
    | some d =>
      simp only [found, hclass, Option.getD_some]
      obtain ⟨hd, hle⟩ := of_classPrefix? hclass (he.of_leads hahead)
      refine readRoutines _ hd ?_
      rcases hn with rfl | ⟨hblank, hn⟩
      · exact Nat.zero_le _
      · have := hle e he hahead hblank
        omega

theorem descendants (h : IsHeaded code n r) :
    ∀ m ∈ RoutineNode.descendantsOf r.nested, IsHeaded code n m := by
  induction h with
  | intro d _ _ _ _ hnested ih =>
    intro m hm
    obtain ⟨k, hk, rfl | hm⟩ := RoutineNode.exists_of_mem_descendantsOf hm
    · exact hnested _ hk
    · exact ih k hk m hm

theorem of_mem_descendantsOf (h : ∀ r ∈ forest, IsHeaded code n r) :
    ∀ r ∈ RoutineNode.descendantsOf forest, IsHeaded code n r := by
  intro r hr
  obtain ⟨k, hk, rfl | hr⟩ := RoutineNode.exists_of_mem_descendantsOf hr
  · exact h _ hk
  · exact (h k hk).descendants r hr

end IsHeaded

end MigrationAudit.Pascal
