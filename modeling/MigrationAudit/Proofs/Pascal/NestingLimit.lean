import Mathlib.Data.List.Chain
import Mathlib.Logic.Relation
import MigrationAudit.Proofs.Pascal.Declarations
import MigrationAudit.Proofs.Pascal.Laminar

/-!
# The limit on open routines

Routines that are read keep a stack of those that are open, and the limit on its height is a limit
on how deep routines lie in each other: one that is met while the stack is full is put into the
innermost open routine as a declaration, and that routine is marked. No header is lost in this way,
and each marked routine of a unit is noted.
-/

namespace MigrationAudit.Pascal

open Text Source

namespace RoutineNode

/-! ## Depth -/

/-- No more than `n` of the routines lie in each other, at any depth. -/
def NestsWithin (n : Nat) (forest : List RoutineNode) : Prop :=
  ∀ chain : List RoutineNode, chain.IsChain (fun r m => m ∈ r.nested) →
    (∀ r ∈ chain.head?, r ∈ descendantsOf forest) → chain.length ≤ n

theorem descendantsOf_append (forest more : List RoutineNode) :
    descendantsOf (forest ++ more) = descendantsOf forest ++ descendantsOf more := by
  induction forest with
  | nil => simp
  | cons r forest ih => simp [ih]

theorem mem_descendantsOf_iff {m : RoutineNode} {forest : List RoutineNode} :
    m ∈ descendantsOf forest ↔ ∃ r ∈ forest, m = r ∨ m ∈ descendantsOf r.nested := by
  induction forest with
  | nil => simp
  | cons r forest ih => simp [ih, or_assoc]

namespace NestsWithin

variable {n k : Nat} {forest more : List RoutineNode} {r : RoutineNode}

theorem nil : NestsWithin n [] := by
  rintro (_ | ⟨r, chain⟩) - hhead
  · exact Nat.zero_le n
  · simpa using hhead r rfl

theorem mono (h : NestsWithin n forest) (hle : n ≤ k) : NestsWithin k forest :=
  fun chain hchain hhead => (h chain hchain hhead).trans hle

theorem append (h : NestsWithin n forest) (h' : NestsWithin n more) :
    NestsWithin n (forest ++ more) := by
  intro chain hchain hhead
  cases chain with
  | nil => exact Nat.zero_le n
  | cons r chain =>
    have hr := hhead r rfl
    rw [descendantsOf_append, List.mem_append] at hr
    rcases hr with hr | hr
    · exact h _ hchain (by simpa using hr)
    · exact h' _ hchain (by simpa using hr)

/-- A routine adds itself to what lies in each other in it. -/
theorem singleton (h : NestsWithin n r.nested) : NestsWithin (n + 1) [r] := by
  rintro (_ | ⟨m, chain⟩) hchain hhead
  · exact Nat.zero_le _
  obtain ⟨r', hr', hm⟩ := mem_descendantsOf_iff.mp (hhead m rfl)
  obtain rfl := List.mem_singleton.mp hr'
  rcases hm with rfl | hm
  · obtain ⟨hfirst, hrest⟩ := List.isChain_cons.mp hchain
    have hlength := h chain hrest fun y hy => mem_descendantsOf_of_mem (hfirst y hy)
    exact Nat.succ_le_succ hlength
  · exact (h _ hchain (by simpa using hm)).trans (Nat.le_succ n)

end NestsWithin

end RoutineNode

open RoutineNode

/-! ## Steps -/

/-- Where reading stands: at a cursor in the innermost open routine, with the open routines around
that one behind it. -/
structure Reading where
  cursor : Cursor
  top : RoutineNode
  parents : List RoutineNode

namespace Reading

variable {limit : Nat}

def stack (g : Reading) : List RoutineNode := g.top :: g.parents

/-- What is read in the end. -/
def forest (limit : Nat) (g : Reading) : List RoutineNode :=
  readLocals limit g.cursor g.top g.parents

/-- What the next word does when reading goes on behind it. -/
inductive Step (limit : Nat) : Reading → Reading → Prop
  | skip {c : Cursor} {top : RoutineNode} {parents : List RoutineNode} {w : Word}
      (word : c.nextWord? = some w)
      (plain : localStep w = .other ∨ localStep w = .header ∧ Declaration.read? w.first = none) :
      Step limit ⟨c, top, parents⟩ ⟨w.behind, top, parents⟩
  | announce {c : Cursor} {top : RoutineNode} {parents : List RoutineNode} {w : Word}
      {d : Declaration} (word : c.nextWord? = some w) (header : localStep w = .header)
      (read : Declaration.read? w.first = some d) (isForward : d.isForward = true) :
      Step limit ⟨c, top, parents⟩ ⟨d.behind, top.push d.node, parents⟩
  | flatten {c : Cursor} {top : RoutineNode} {parents : List RoutineNode} {w : Word}
      {d : Declaration} (word : c.nextWord? = some w) (header : localStep w = .header)
      (read : Declaration.read? w.first = some d) (isForward : d.isForward = false)
      (full : limit ≤ parents.length + 1) :
      Step limit ⟨c, top, parents⟩
        ⟨d.behind, { top.push d.node with nestingCapped := true }, parents⟩
  | enter {c : Cursor} {top : RoutineNode} {parents : List RoutineNode} {w : Word}
      {d : Declaration} (word : c.nextWord? = some w) (header : localStep w = .header)
      (read : Declaration.read? w.first = some d) (isForward : d.isForward = false)
      (room : parents.length + 1 < limit) :
      Step limit ⟨c, top, parents⟩ ⟨d.behind, d.node, top :: parents⟩
  | leave {c : Cursor} {top parent : RoutineNode} {parents : List RoutineNode} {w : Word}
      (word : c.nextWord? = some w) (body : localStep w = .body) :
      Step limit ⟨c, top, parent :: parents⟩
        ⟨(readBody top w.behind).2, parent.push (readBody top w.behind).1, parents⟩

/-- What is read when reading does not go on. -/
inductive Stop : Reading → List RoutineNode → Prop
  | givenUp {c : Cursor} {top : RoutineNode} {parents : List RoutineNode}
      (ends : ∀ w, c.nextWord? = some w → localStep w = .sectionEnd) :
      Stop ⟨c, top, parents⟩ (unfinished (top :: parents))
  | finished {c : Cursor} {top : RoutineNode} {w : Word} (word : c.nextWord? = some w)
      (body : localStep w = .body) : Stop ⟨c, top, []⟩ [(readBody top w.behind).1]

/-- A run of steps to what is read in the end. -/
inductive Run (limit : Nat) : Reading → List RoutineNode → Prop
  | stop {g : Reading} {found : List RoutineNode} (last : Stop g found) : Run limit g found
  | step {g g' : Reading} {found : List RoutineNode} (first : Step limit g g')
      (rest : Run limit g' found) : Run limit g found

theorem run_forest (limit : Nat) (g : Reading) : Run limit g (g.forest limit) := by
  obtain ⟨c, top, parents⟩ := g
  rw [forest]
  fun_induction readLocals limit c top parents with
  | case1 c top parents hw => exact .stop (.givenUp fun w hsome => by simp [hw] at hsome)
  | case2 c top w hw hstep => exact .stop (.finished hw hstep)
  | case3 c top w hw hstep parent parents ih => exact .step (.leave hw hstep) ih
  | case4 c top parents w hw hstep =>
    refine .stop (.givenUp fun w' hsome => ?_)
    obtain rfl : w = w' := Option.some.inj (hw.symm.trans hsome)
    exact hstep
  | case5 c top parents w hw hstep hd ih => exact .step (.skip hw (.inr ⟨hstep, hd⟩)) ih
  | case6 c top parents w hw hstep d hd hforward ih =>
    exact .step (.announce hw hstep hd hforward) ih
  | case7 c top parents w hw hstep d hd hforward hlimit ih =>
    exact .step (.flatten hw hstep hd (by simpa using hforward) hlimit) ih
  | case8 c top parents w hw hstep d hd hforward hlimit ih =>
    exact .step (.enter hw hstep hd (by simpa using hforward) (Nat.not_le.mp hlimit)) ih
  | case9 c top parents w hw hstep ih => exact .step (.skip hw (.inl hstep)) ih

variable {g g' : Reading} {found : List RoutineNode}

/-- A step does not change what is read in the end. -/
theorem Step.forest_eq (h : Step limit g g') : g.forest limit = g'.forest limit := by
  rw [forest, forest]
  cases h with
  | skip word plain =>
    rcases plain with hother | ⟨hheader, hread⟩
    · exact readLocals_of_other word hother
    · rw [readLocals_of_keyword word hheader, hread, Option.elim_none]
  | announce word header read isForward =>
    rw [readLocals_of_keyword word header, read, Option.elim_some, if_pos isForward]
  | flatten word header read isForward full =>
    rw [readLocals_of_keyword word header, read, Option.elim_some, if_neg (by simp [isForward]),
      if_pos full]
  | enter word header read isForward room =>
    rw [readLocals_of_keyword word header, read, Option.elim_some, if_neg (by simp [isForward]),
      if_neg (Nat.not_le.mpr room)]
  | leave word body => rw [readLocals_of_body word body, resume]

theorem forest_eq_of_reaches (h : Relation.ReflTransGen (Step limit) g g') :
    g.forest limit = g'.forest limit := by
  induction h with
  | refl => rfl
  | tail _ hstep ih => exact ih.trans hstep.forest_eq

/-! ## The stack -/

/-- No more routines are open than may be, and what lies in each other in one of them leaves room
for those around it. -/
def Fits (limit : Nat) : List RoutineNode → Prop
  | [] => True
  | r :: rest =>
    r.body = none ∧ rest.length < limit ∧ NestsWithin (limit - rest.length) r.nested ∧
      Fits limit rest

theorem Fits.length_le {pending : List RoutineNode} (h : Fits limit pending) :
    pending.length ≤ limit := by
  cases pending with
  | nil => exact Nat.zero_le limit
  | cons r rest => exact h.2.1

theorem Fits.body_eq {pending : List RoutineNode} (h : Fits limit pending) :
    ∀ r ∈ pending, r.body = none := by
  induction pending with
  | nil => exact List.forall_mem_nil _
  | cons r rest ih => exact List.forall_mem_cons.mpr ⟨h.1, ih h.2.2.2⟩

/-- A finished routine may be put into the innermost open one when it leaves the same room. -/
theorem Fits.push {r child : RoutineNode} {rest : List RoutineNode} (h : Fits limit (r :: rest))
    (hchild : NestsWithin (limit - (rest.length + 1)) child.nested) :
    Fits limit (r.push child :: rest) := by
  obtain ⟨hbody, hlength, hnested, hrest⟩ := h
  refine ⟨hbody, hlength, hnested.append ?_, hrest⟩
  have hroom : limit - (rest.length + 1) + 1 = limit - rest.length := by omega
  exact hroom ▸ hchild.singleton

/-- The step: the stack keeps fitting. -/
theorem Step.fits (h : Step limit g g') (hfits : Fits limit g.stack) : Fits limit g'.stack := by
  cases h with
  | skip => exact hfits
  | announce word header read =>
    refine hfits.push ?_
    rw [(announced_read? read).2]
    exact .nil
  | flatten word header read =>
    refine hfits.push ?_
    rw [(announced_read? read).2]
    exact .nil
  | enter word header read isForward room =>
    obtain ⟨hheader, hnested⟩ := announced_read? read
    refine ⟨hheader.body_eq, room, ?_, hfits⟩
    rw [hnested]
    exact .nil
  | leave => exact hfits.2.2.2.push hfits.2.2.1

theorem Fits.nestsWithin_unfinished {pending : List RoutineNode} (h : Fits limit pending) :
    NestsWithin (limit + 1) (unfinished pending) := by
  induction pending with
  | nil => exact .nil
  | cons r rest ih =>
    obtain ⟨-, -, hnested, hrest⟩ := h
    rw [unfinished, List.reverse_cons, List.flatMap_append, List.flatMap_singleton]
    have hr : NestsWithin (limit + 1) [{ r with unterminated := true, nested := [] }] :=
      NestsWithin.singleton .nil
    exact (ih hrest).append (hr.append (hnested.mono (by omega)))

theorem Stop.nestsWithin (h : Stop g found) (hfits : Fits limit g.stack) :
    NestsWithin (limit + 1) found := by
  cases h with
  | givenUp => exact hfits.nestsWithin_unfinished
  | @finished c top w =>
    have hnested : NestsWithin limit (readBody top w.behind).1.nested := hfits.2.2.1
    exact hnested.singleton

/-- The run: what is read in the end lies in each other no deeper than the stack allows. -/
theorem Run.nestsWithin (h : Run limit g found) (hfits : Fits limit g.stack) :
    NestsWithin (limit + 1) found := by
  induction h with
  | stop last => exact last.nestsWithin hfits
  | step first _ ih => exact ih (first.fits hfits)

theorem fits_of_reaches (h : Relation.ReflTransGen (Step limit) g g') (hfits : Fits limit g.stack) :
    Fits limit g'.stack := by
  induction h with
  | refl => exact hfits
  | tail _ hstep ih => exact hstep.fits ih

/-! ## What becomes of an open routine -/

/-- The open routine `r` is `m` in the end: what was nested in it is still nested in it, or stands
behind it when it has no body. -/
structure BecomesIn (forest : List RoutineNode) (r m : RoutineNode) : Prop where
  header_eq : m.header = r.header
  start_eq : m.start = r.start
  nestingCapped : r.nestingCapped = true → m.nestingCapped = true
  place : m ∈ descendantsOf forest ∧ m.body.isSome = true ∧ r.nested ⊆ m.nested ∨
    m.body = none ∧ ∃ before behind, forest = before ++ m :: behind ∧ r.nested ⊆ behind

namespace BecomesIn

variable {forest : List RoutineNode} {r r' m child : RoutineNode}

theorem mem (h : BecomesIn forest r m) : m ∈ descendantsOf forest := by
  rcases h.place with ⟨hm, -⟩ | ⟨-, before, behind, rfl, -⟩
  · exact hm
  · exact mem_descendantsOf_of_mem (by simp)

theorem nested_subset (h : BecomesIn forest r m) : r.nested ⊆ descendantsOf forest := by
  rcases h.place with ⟨hm, -, hnested⟩ | ⟨-, before, behind, rfl, hnested⟩
  · exact List.Subset.trans hnested (nested_subset_descendantsOf forest m hm)
  · intro n hn
    exact mem_descendantsOf_of_mem (by simp [hnested hn])

/-- What becomes of a routine that more has been put into becomes of the routine. -/
theorem of_push (h : BecomesIn forest (r.push child) m) : BecomesIn forest r m where
  header_eq := h.header_eq
  start_eq := h.start_eq
  nestingCapped := h.nestingCapped
  place := by
    have hpush : r.nested ⊆ (r.push child).nested := List.subset_append_left ..
    rcases h.place with ⟨hm, hbody, hnested⟩ | ⟨hbody, before, behind, hforest, hnested⟩
    · exact .inl ⟨hm, hbody, List.Subset.trans hpush hnested⟩
    · exact .inr ⟨hbody, before, behind, hforest, List.Subset.trans hpush hnested⟩

theorem of_cap (h : BecomesIn forest { r with nestingCapped := true } m) : BecomesIn forest r m :=
  ⟨h.header_eq, h.start_eq, fun _ => h.nestingCapped rfl, h.place⟩

end BecomesIn

theorem exists_becomesIn_unfinished {pending : List RoutineNode} {r : RoutineNode}
    (hr : r ∈ pending) (hbody : r.body = none) : ∃ m, BecomesIn (unfinished pending) r m := by
  obtain ⟨inner, outer, rfl⟩ := List.append_of_mem hr
  refine ⟨{ r with unterminated := true, nested := [] }, rfl, rfl, id, .inr ⟨hbody, ?_⟩⟩
  refine ⟨unfinished outer, r.nested ++ unfinished inner, ?_, List.subset_append_left ..⟩
  simp [unfinished]

/-- All routines that are open are among those read in the end. -/
theorem Run.exists_becomesIn (h : Run limit g found) (hfits : Fits limit g.stack) :
    ∀ r ∈ g.stack, ∃ m, BecomesIn found r m := by
  induction h with
  | @stop g found last =>
    intro r hr
    cases last with
    | givenUp => exact exists_becomesIn_unfinished hr (hfits.body_eq r hr)
    | @finished c top w =>
      obtain rfl := List.mem_singleton.mp hr
      have hmem := mem_descendantsOf_of_mem (List.mem_singleton_self (readBody r w.behind).1)
      exact ⟨(readBody r w.behind).1, rfl, rfl, id, .inl ⟨hmem, rfl, List.Subset.refl _⟩⟩
  | @step g g' found first rest ih =>
    have ih := ih (first.fits hfits)
    cases first with
    | skip => exact ih
    | announce =>
      obtain ⟨⟨m, hm⟩, hparents⟩ := List.forall_mem_cons.mp ih
      exact List.forall_mem_cons.mpr ⟨⟨m, hm.of_push⟩, hparents⟩
    | flatten =>
      obtain ⟨⟨m, hm⟩, hparents⟩ := List.forall_mem_cons.mp ih
      exact List.forall_mem_cons.mpr ⟨⟨m, hm.of_cap.of_push⟩, hparents⟩
    | enter => exact (List.forall_mem_cons.mp ih).2
    | @leave c top parent parents w word body =>
      -- The finished routine is nested in its parent, and so in whatever becomes of that one.
      obtain ⟨⟨m, hm⟩, hparents⟩ := List.forall_mem_cons.mp ih
      have hdone : (readBody top w.behind).1 ∈ descendantsOf found :=
        hm.nested_subset (List.mem_append_right _ (List.mem_singleton_self _))
      have htop : BecomesIn found top (readBody top w.behind).1 :=
        ⟨rfl, rfl, id, .inl ⟨hdone, rfl, List.Subset.refl _⟩⟩
      exact List.forall_mem_cons.mpr ⟨⟨_, htop⟩, List.forall_mem_cons.mpr
        ⟨⟨m, hm.of_push⟩, hparents⟩⟩

/-! ## Headers met while the stack is full -/

/-- The header of a routine comes next that has its body here. -/
def Meets (g : Reading) (d : Declaration) : Prop :=
  ∃ w, g.cursor.nextWord? = some w ∧ localStep w = .header ∧
    Declaration.read? w.first = some d ∧ d.isForward = false

/-- A routine is read as a declaration that is nested in what `top` has become, or stands behind it
when that has no body. What `top` has become is marked. -/
structure FlattenedInto (forest : List RoutineNode) (top child : RoutineNode) : Prop where
  body_eq : child.body = none
  nested_eq : child.nested = []
  parent : ∃ m ∈ descendantsOf forest, m.header = top.header ∧ m.start = top.start ∧
    m.nestingCapped = true ∧ (m.body.isSome = true ∧ child ∈ m.nested ∨
      m.body = none ∧ ∃ before behind, forest = before ++ m :: behind ∧ child ∈ behind)

theorem Meets.flattenedInto {d : Declaration} (h : g.Meets d) (hfits : Fits limit g.stack)
    (hfull : limit ≤ g.stack.length) : FlattenedInto (g.forest limit) g.top d.node := by
  obtain ⟨w, hword, hheader, hread, hforward⟩ := h
  obtain ⟨hannounced, hnested⟩ := announced_read? hread
  have hstep : Step limit g
      ⟨d.behind, { g.top.push d.node with nestingCapped := true }, g.parents⟩ :=
    .flatten hword hheader hread hforward hfull
  rw [hstep.forest_eq]
  obtain ⟨m, hm⟩ := (run_forest limit _).exists_becomesIn (hstep.fits hfits) _ List.mem_cons_self
  have hchild : d.node ∈ (g.top.push d.node).nested :=
    List.mem_append_right _ (List.mem_singleton_self _)
  refine ⟨hannounced.body_eq, hnested, m, hm.mem, hm.header_eq, hm.start_eq, hm.nestingCapped rfl,
    ?_⟩
  rcases hm.place with ⟨-, hbody, hsub⟩ | ⟨hbody, before, behind, hforest, hsub⟩
  · exact .inl ⟨hbody, hsub hchild⟩
  · exact .inr ⟨hbody, before, behind, hforest, hsub hchild⟩

def start (d : Declaration) : Reading := ⟨d.behind, d.node, []⟩

theorem fits_start {c : Cursor} {d : Declaration} (h : Declaration.read? c = some d)
    (hpos : 0 < limit) : Fits limit (start d).stack := by
  obtain ⟨hannounced, hnested⟩ := announced_read? h
  refine ⟨hannounced.body_eq, hpos, ?_, trivial⟩
  rw [start, hnested]
  exact .nil

/-- The routines that start with the header at the cursor are read by way of `g`. -/
def IsReached (maxNesting : Nat) (c : Cursor) (g : Reading) : Prop :=
  ∃ d, Declaration.read? c = some d ∧ d.isForward = false ∧
    Relation.ReflTransGen (Step (max 1 maxNesting)) (start d) g

theorem IsReached.fits {maxNesting : Nat} {c : Cursor} (h : g.IsReached maxNesting c) :
    Fits (max 1 maxNesting) g.stack := by
  obtain ⟨d, hread, -, hreaches⟩ := h
  exact fits_of_reaches hreaches (fits_start hread (by omega))

theorem IsReached.readRoutines_eq {maxNesting : Nat} {c : Cursor} (h : g.IsReached maxNesting c) :
    readRoutines maxNesting c = g.forest (max 1 maxNesting) := by
  obtain ⟨d, hread, hforward, hreaches⟩ := h
  rw [← forest_eq_of_reaches hreaches, readRoutines, hread]
  simp only [hforward, Bool.false_eq_true, if_false]
  rfl

end Reading

open Reading

theorem nestsWithin_readRoutines (maxNesting : Nat) (c : Cursor) :
    NestsWithin (max 1 maxNesting + 1) (readRoutines maxNesting c) := by
  unfold readRoutines
  split
  · exact .nil
  · next d hread =>
    split
    · have hnested := (announced_read? hread).2
      have hnode : NestsWithin (0 + 1) [d.node] := NestsWithin.singleton (hnested ▸ .nil)
      exact hnode.mono (by omega)
    · exact (run_forest _ (start d)).nestsWithin (fits_start hread (by omega))

/-! ## Notes -/

namespace Assembly

variable (path : String) (source : Masked) (s : ExtractionSettings)

def notesOn (rs : List RoutineNode) : List Diagnostic :=
  rs.flatMap fun r => r.diagnostics path s (r.toRoutine source s)

theorem diagnostics_foldl_addNested (a : Assembly) (rs : List RoutineNode) :
    (rs.foldl (addNested path source s) a).diagnostics =
      a.diagnostics ++ notesOn path source s rs := by
  induction rs generalizing a with
  | nil => simp [notesOn]
  | cons r rs ih =>
    rw [List.foldl_cons, ih, notesOn, notesOn, List.flatMap_cons, ← List.append_assoc]
    rfl

theorem diagnostics_attach (a : Assembly) (facts : Routine) :
    (a.attach facts).diagnostics = a.diagnostics := by
  unfold attach
  split
  · rfl
  · split <;> rfl

theorem diagnostics_addTopLevel (a : Assembly) (r : RoutineNode) :
    (a.addTopLevel path source s r).diagnostics =
      a.diagnostics ++ notesOn path source s (descendantsOf [r]) := by
  have hnotes : notesOn path source s (descendantsOf [r]) =
      r.diagnostics path s (r.toRoutine source s) ++ notesOn path source s r.descendants := by
    simp [notesOn, descendants_eq]
  rw [addTopLevel_eq, diagnostics_attach, withNested, diagnostics_foldl_addNested, hnotes,
    ← List.append_assoc]
  rfl

/-- The run: all routines are noted, at every depth and in order. -/
theorem diagnostics_foldl_addTopLevel (a : Assembly) (forest : List RoutineNode) :
    (forest.foldl (addTopLevel path source s) a).diagnostics =
      a.diagnostics ++ notesOn path source s (descendantsOf forest) := by
  induction forest generalizing a with
  | nil => simp [notesOn]
  | cons r forest ih =>
    have hsplit : descendantsOf (r :: forest) = descendantsOf [r] ++ descendantsOf forest :=
      descendantsOf_append [r] forest
    rw [List.foldl_cons, ih, diagnostics_addTopLevel, hsplit, List.append_assoc, notesOn, notesOn,
      notesOn, List.flatMap_append]

end Assembly

/-- The note that routines in a routine of a unit are nested too deep. -/
def cappedNote (s : ExtractionSettings) (path text : String) (r : RoutineNode) : Diagnostic :=
  let facts := r.toRoutine (Masked.of .pascal text.toList) s
  .malformed path
    s!"routine '{facts.qualifiedName}' nests deeper than {s.maxNestingDepth} levels" facts.line

theorem cappedNote_mem_diagnostics {s : ExtractionSettings} (path : String) {text : String}
    {r : RoutineNode} (hr : r ∈ descendantsOf (unitForest s text))
    (hcapped : r.nestingCapped = true) :
    cappedNote s path text r ∈ (readUnit s path text).diagnostics := by
  have hdone : (readUnit s path text).diagnostics = (unitDone s path text).diagnostics := rfl
  rw [hdone, unitDone, Assembly.diagnostics_foldl_addTopLevel, List.mem_append]
  refine .inr (List.mem_flatMap.mpr ⟨r, hr, ?_⟩)
  rw [RoutineNode.diagnostics, hcapped]
  exact List.mem_append_right _ (List.mem_singleton_self _)

/-! ## The limit -/

/-- Routines lie in each other no deeper than the limit and one level below it. No more of them are
open at any time than the limit allows; a header that is met while as many are open is kept as a
declaration at the innermost one, which is marked; and every marked routine of a unit is noted. -/
theorem readRoutines_limited (maxNesting : Nat) (c : Cursor) :
    NestsWithin (max 1 maxNesting + 1) (readRoutines maxNesting c) ∧
      (∀ g, IsReached maxNesting c g → g.stack.length ≤ max 1 maxNesting ∧
        ∀ d, g.Meets d → g.stack.length = max 1 maxNesting →
          FlattenedInto (readRoutines maxNesting c) g.top d.node) ∧
      ∀ (s : ExtractionSettings) (path text : String),
        ∀ r ∈ descendantsOf (unitForest s text), r.nestingCapped = true →
          cappedNote s path text r ∈ (readUnit s path text).diagnostics := by
  refine ⟨nestsWithin_readRoutines maxNesting c, fun g hreached => ?_,
    fun s path text r hr hcapped => cappedNote_mem_diagnostics path hr hcapped⟩
  refine ⟨hreached.fits.length_le, fun d hmeets hfull => ?_⟩
  rw [hreached.readRoutines_eq]
  exact hmeets.flattenedInto hreached.fits hfull.ge

/-- A routine in another one, where one may be open. -/
def twoRoutines : String := "procedure A; procedure B; begin end; begin end;"

theorem readRoutines_limited_twoRoutines :
    (∃ top child, top.header.name = "A" ∧ child.header.name = "B" ∧
      FlattenedInto (readRoutines 1 (.ofText twoRoutines.toList)) top child) ∧
      ∃ r ∈ descendantsOf (unitForest { maxNestingDepth := 1 } ("implementation " ++ twoRoutines)),
        r.nestingCapped = true ∧
          cappedNote { maxNestingDepth := 1 } "A.pas" ("implementation " ++ twoRoutines) r ∈
            (readUnit { maxNestingDepth := 1 } "A.pas"
              ("implementation " ++ twoRoutines)).diagnostics := by
  have hmet : (Declaration.read? (.ofText twoRoutines.toList)).any (fun d =>
      !d.isForward && d.node.header.name == "A" && d.behind.nextWord?.any fun w =>
        localStep w == .header && (Declaration.read? w.first).any fun d' =>
          !d'.isForward && d'.node.header.name == "B") = true := by decide +kernel
  have hcapped : (descendantsOf (unitForest { maxNestingDepth := 1 }
      ("implementation " ++ twoRoutines))).any (·.nestingCapped) = true := by decide +kernel
  obtain ⟨-, hfull, hnotes⟩ := readRoutines_limited 1 (.ofText twoRoutines.toList)
  constructor
  · simp only [Option.any_eq_true, Bool.and_eq_true, Bool.not_eq_true', beq_iff_eq] at hmet
    obtain ⟨d, hread, ⟨hforward, hname⟩, w, hword, hheader, d', hread', hforward', hname'⟩ := hmet
    have hreached : IsReached 1 (.ofText twoRoutines.toList) (start d) :=
      ⟨d, hread, hforward, .refl⟩
    have hmeets : (start d).Meets d' := ⟨w, hword, hheader, hread', hforward'⟩
    exact ⟨d.node, d'.node, hname, hname', (hfull _ hreached).2 d' hmeets rfl⟩
  · obtain ⟨r, hr, hmarked⟩ := List.any_eq_true.mp hcapped
    exact ⟨r, hr, hmarked, hnotes _ "A.pas" _ r hr hmarked⟩

end MigrationAudit.Pascal
