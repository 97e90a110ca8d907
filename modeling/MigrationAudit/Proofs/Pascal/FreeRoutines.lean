import MigrationAudit.Proofs.Pascal.EarlierClasses
import MigrationAudit.Proofs.Pascal.HeaderText
import MigrationAudit.Proofs.Pascal.HeaderWalk
import MigrationAudit.Proofs.Pascal.ReadHeaders
import MigrationAudit.Proofs.Pascal.SectionOrder
import MigrationAudit.Proofs.Text.Ahead
import MigrationAudit.Proofs.Text.Blocks

/-!
# Headers of free routines

The body of a type declaration is recognized when its words are balanced up to an `end`. Then it is
covered from the introducer to that `end`, unless another declaration of its kind stands around it.
The free routines of a unit are those that the walk over its interface reports, and routines of its
implementation. No header is reported that stands in the recognized body of a type declaration, and
outside of what is recognized every header is, but for those within an earlier header's reach.
-/

/-! ## Bodies of type declarations -/

namespace MigrationAudit.Text

variable {α : Type} {read? : Cursor → Option (α × Cursor)} {cs : List Char}

theorem eq_of_mem_allMatches {m n : Match α} (hm : m ∈ allMatches read? cs)
    (hn : n ∈ allMatches read? cs) (h : m.first.offset = n.first.offset) : m = n := by
  obtain ⟨hmlead, -, hmread⟩ := leads_of_mem_allMatches hm
  obtain ⟨hnlead, -, hnread⟩ := leads_of_mem_allMatches hn
  have hfirst := hmlead.eq_of_offset_eq hnlead h
  rw [hfirst, hnread] at hmread
  obtain ⟨hvalue, hbehind⟩ := Prod.mk.inj (Option.some.inj hmread)
  obtain ⟨first, value, behind⟩ := m
  obtain ⟨first', value', behind'⟩ := n
  simp_all

/-- A word closes the block that is open at a cursor: the words in front of it are balanced. -/
def ClosesAt (step : Word → BlockStep) (c : Cursor) (w : Word) : Prop :=
  ∃ ws rest, c.words = ws ++ w :: rest ∧ IsBalanced (ws.map step) ∧ step w = .closes

theorem exists_scanBlock_of_closesAt {step : Word → BlockStep} {c : Cursor} {w : Word}
    (h : ClosesAt step c w) : ∃ deepest, scanBlock step c = ⟨.closed w, deepest⟩ := by
  obtain ⟨ws, rest, hwords, hbalanced, hstep⟩ := h
  exact ⟨_, scanBlock_eq_closed hwords hbalanced hstep⟩

end MigrationAudit.Text

namespace MigrationAudit.Pascal

open Text Source

variable {source : Masked} {s : ExtractionSettings} {code : List Char} {w : Word}

/-! ## Classes -/

/-- Where the body of a class starts. References to classes, helpers of classes, and classes with a
semicolon behind their head have none. -/
def classBody? (i : Match (List Char)) : Option Cursor :=
  (pastModifiers? i.behind).bind fun c =>
    if semicolonFollows c then none
    else if c.skipBlank.after.head? == some '(' && semicolonFollows (ancestors c).2 then none
    else some (ancestors c).2

theorem read?_of_classBody? {i : Match (List Char)} {b : Cursor} (h : classBody? i = some b) :
    ∃ facts, ParsedClass.read? source s i = some (.ofBody source s facts i.first.offset b) := by
  obtain ⟨c, hpast, hbody⟩ := Option.bind_eq_some_iff.mp h
  split at hbody
  · simp at hbody
  · next hopen =>
    split at hbody
    · simp at hbody
    · next hhead =>
      obtain rfl := Option.some.inj hbody
      refine ⟨{ name := String.ofList i.value
                parent := (ancestors c).1.head?
                interfaces := (ancestors c).1.tail
                line := source.lineAt i.first.offset }, ?_⟩
      rw [ParsedClass.read?, hpast]
      simp only [if_neg hopen, if_neg hhead]

/-- A class with a balanced body is found with all of its body, unless it stands in another one. -/
theorem exists_mem_findClasses {i : Match (List Char)} {b : Cursor}
    (hi : i ∈ classIntroducers source.code) (hbody : classBody? i = some b)
    (hclose : ClosesAt classStep b w)
    (hinner : ∀ c ∈ findClasses source s, c.terminated = true →
      c.span.contains i.first.offset = true → c.span.start = i.first.offset) :
    ∃ c ∈ findClasses source s, c.span = ⟨i.first.offset, w.stop⟩ := by
  obtain ⟨facts, hread⟩ : ∃ facts, ParsedClass.read? source s i =
      some (.ofBody source s facts i.first.offset b) := read?_of_classBody? hbody
  obtain ⟨deepest, hscan⟩ := exists_scanBlock_of_closesAt hclose
  have hspan : (ParsedClass.ofBody source s facts i.first.offset b).span =
      ⟨i.first.offset, w.stop⟩ := by
    simp only [ParsedClass.ofBody, hscan, BlockScan.stopCursor]
    rfl
  refine ⟨_, ?_, hspan⟩
  rw [findClasses_eq, withIntroduced_eq] at hinner ⊢
  refine mem_foldl_addUncovered hi hread fun c hc hcovers j hj hjread => ?_
  -- a class around the introducer starts with it, so it is the one that is looked for
  obtain ⟨hterminated, hcontains⟩ := Bool.and_eq_true_iff.mp hcovers
  have hstart := hinner c hc hterminated hcontains
  exact eq_of_mem_allMatches hj hi ((start_of_read? hjread).symm.trans hstart)

/-! ## Records, objects and interfaces -/

/-- Where the body of a record, an object or an interface starts. One with a semicolon behind its
keyword has none. -/
def otherBody? (i : Match Unit) : Option Cursor :=
  if semicolonFollows i.behind then none else some i.behind

def otherSpan? (i : Match Unit) : Option Span :=
  (otherBody? i).map fun b => ⟨i.first.offset, ((scanBlock otherTypeStep b).stopCursor b).offset⟩

theorem findOtherTypes_eq (code : List Char) :
    findOtherTypes code = (otherIntroducers code).foldl
      (addUncovered (fun i span => span.contains i.first.offset) otherSpan?) [] := by
  rw [findOtherTypes]
  congr 1
  funext found i
  rw [addUncovered, otherSpan?, otherBody?]
  cases found.any (·.contains i.first.offset) <;> cases semicolonFollows i.behind <;> simp

/-- A record, an object or an interface with a balanced body is covered with all of its body, unless
it stands in another one. -/
theorem mem_findOtherTypes {code : List Char} {i : Match Unit} {b : Cursor}
    (hi : i ∈ otherIntroducers code) (hbody : otherBody? i = some b)
    (hclose : ClosesAt otherTypeStep b w)
    (hinner : ∀ span ∈ findOtherTypes code, span.contains i.first.offset = true →
      span.start = i.first.offset) :
    ⟨i.first.offset, w.stop⟩ ∈ findOtherTypes code := by
  obtain ⟨deepest, hscan⟩ := exists_scanBlock_of_closesAt hclose
  have hspan : otherSpan? i = some ⟨i.first.offset, w.stop⟩ := by
    rw [otherSpan?, hbody, Option.map_some, hscan]
    rfl
  rw [findOtherTypes_eq] at hinner ⊢
  refine mem_foldl_addUncovered hi hspan fun span hmem hcontains j hj hjspan => ?_
  obtain ⟨b', -, rfl⟩ := Option.map_eq_some_iff.mp hjspan
  exact eq_of_mem_allMatches hj hi (hinner _ hmem hcontains)

/-! ## Sections -/

theorem exists_of_implementation {start : Nat} {interface implementation : Span}
    (hi : (Sections.find code start).interface = some interface)
    (h : (Sections.find code start).implementation = some implementation) :
    ∃ w ∈ wordsBehind code start, startsImplementation w = true ∧ interface.stop = w.start ∧
      implementation.start = w.stop := by
  cases hfind : (wordsBehind code start).find? startsImplementation with
  | none =>
    rw [Sections.find_of_none hfind] at hi h
    cases hword : (wordsBehind code start).find? startsInterface <;> simp [hword] at hi h
  | some w =>
    obtain ⟨front, back, hparted⟩ := Sections.find?_eq_some_iff.mp hfind
    rw [Sections.find_of_isParted hparted] at hi h
    obtain ⟨v, -, rfl⟩ := Option.map_eq_some_iff.mp hi
    obtain rfl := Option.some.inj h
    exact ⟨w, List.mem_of_find?_eq_some hfind, hparted.keyword, rfl, rfl⟩

theorem before_implementation {start : Nat} {interface implementation : Span}
    (hi : (Sections.find code start).interface = some interface)
    (h : (Sections.find code start).implementation = some implementation) :
    let c := Cursor.within code implementation.start implementation.stop
    c.before.head?.any isBlank = false ∧ c.offset = interface.stop + 14 := by
  obtain ⟨w, hw, hkeyword, hstop, hstart⟩ := exists_of_implementation hi h
  have hwhole := Cursor.isWhole_of_mem_words hw
  obtain ⟨hfirst, hbehind⟩ := Cursor.leadsWhole_of_mem_words hw
  have hlead := (Cursor.leads_seek (Cursor.ofText code) start).trans
    (hfirst.leads.trans hbehind.leads)
  have hboundary := ((Cursor.standsIn_ofText code).of_leads hlead).isBoundary
  have hseek : (Cursor.ofText code).seek implementation.start = w.behind := by
    rw [hstart]
    exact (Cursor.leads_seek _ _).eq_of_offset_eq hlead (offset_seek_ofText hboundary)
  simp only [Cursor.within, Cursor.upTo, hseek]
  refine ⟨?_, by rw [hstop, ← stop_of_startsImplementation hw hkeyword, Word.stop]⟩
  obtain ⟨a, hlast⟩ := List.getLast?_isSome.mpr hwhole.ne_nil |> Option.isSome_iff_exists.mp
  rw [hwhole.behind_eq, Cursor.head?_before_advance, hlast]
  simpa using isBlank_of_isIdent (hwhole.isIdent a (List.mem_of_getLast? hlast))

/-! ## Records -/

/-- What the header of a routine says, with its line: what reading its body and finding its place
leave as it is. -/
def heading (r : Routine) : Routine :=
  { name := r.name
    owner := r.owner
    kind := r.kind
    params := r.params
    returnType := r.returnType
    isClassLevel := r.isClassLevel
    line := r.line }

@[simp] theorem heading_absorb (d facts : Routine) : heading (absorb d facts) = heading d := rfl

@[simp] theorem heading_toRoutine (source : Masked) (s : ExtractionSettings) (r : RoutineNode) :
    heading (r.toRoutine source s) = r.header.toRoutine (source.lineAt r.start) := by
  cases r with | mk _ _ _ _ body => cases body <;> rfl

/-- Putting an implementation in keeps the headings, or adds its own. -/
theorem Placed.headings {facts : Routine} {d? : Option Routine} {rs rs' : List Routine}
    (h : Placed facts d? rs rs') :
    rs'.map heading = rs.map heading ∨ (rs'.map heading).Perm (heading facts :: rs.map heading) := by
  cases h with
  | completed front back => left; simp
  | added front back visibility =>
    right
    simp only [List.map_append, List.map_cons]
    exact List.perm_middle

namespace Assembly

variable (path : String) (source : Masked) (s : ExtractionSettings) (a : Assembly)

/-- The step of a run over an implementation: the free routines get the headings of what is nested in
the routine, and perhaps the routine's own. -/
theorem exists_headings_addTopLevel (r : RoutineNode) :
    ∃ added : List RoutineNode, added.Subperm (r :: r.descendants) ∧
      ((a.addTopLevel path source s r).free.routines.toList.map heading).Perm
        (a.free.routines.toList.map heading ++ added.map fun n => heading (n.toRoutine source s)) := by
  rw [addTopLevel_eq]
  have hnested : (a.withNested path source s r).free.routines.toList.map heading =
      a.free.routines.toList.map heading ++
        r.descendants.map fun n => heading (n.toRoutine source s) := by
    rw [free_withNested, List.map_append, List.map_map]
    rfl
  have hkept : r.descendants.Subperm (r :: r.descendants) := (List.sublist_cons_self ..).subperm
  rcases placed_attach (a.withNested path source s r) (r.toRoutine source s) with
    ⟨-, hfree⟩ | ⟨hplaced, -⟩
  · exact ⟨r.descendants, hkept, by rw [hfree, hnested]⟩
  · rcases hplaced.headings with heq | hperm
    · exact ⟨r.descendants, hkept, by rw [heq, hnested]⟩
    · refine ⟨r :: r.descendants, .refl _, hperm.trans ?_⟩
      rw [hnested]
      exact List.perm_middle.symm

theorem exists_headings_addTopLevels (forest : List RoutineNode) :
    ∃ added : List RoutineNode, added.Subperm (RoutineNode.descendantsOf forest) ∧
      ((forest.foldl (addTopLevel path source s) a).free.routines.toList.map heading).Perm
        (a.free.routines.toList.map heading ++ added.map fun n => heading (n.toRoutine source s)) := by
  induction forest generalizing a with
  | nil => exact ⟨[], .refl _, by simp⟩
  | cons r forest ih =>
    obtain ⟨first, hfirst, hstep⟩ := exists_headings_addTopLevel path source s a r
    obtain ⟨rest, hrest, hrun⟩ := ih (a.addTopLevel path source s r)
    refine ⟨first ++ rest, ?_, ?_⟩
    · rw [RoutineNode.descendantsOf_cons, ← RoutineNode.descendants_eq, ← List.cons_append]
      exact hfirst.append hrest
    · rw [List.map_append, ← List.append_assoc]
      exact hrun.trans (hstep.append_right _)

end Assembly

/-! ## Units -/

def unitSections (text : String) : Sections :=
  let code := (Masked.of .pascal text.toList).code
  Sections.find code ((FileHeader.find? code).elim 0 (·.stop))

def unitTypes (s : ExtractionSettings) (text : String) : List Span :=
  let source := Masked.of .pascal text.toList
  (findClasses source s).map (·.span) ++ findOtherTypes source.code

/-- A type declaration with a body, from its introducer to the `end` that closes it. Another one
that is recognized may stand around it only from the same place on. -/
inductive IsTypeDeclaration (s : ExtractionSettings) (source : Masked) : Span → Prop
  | ofClass {i : Match (List Char)} {b : Cursor} {w : Word}
      (introduced : i ∈ classIntroducers source.code) (body : classBody? i = some b)
      (closes : ClosesAt classStep b w)
      (outermost : ∀ c ∈ findClasses source s, c.terminated = true →
        c.span.contains i.first.offset = true → c.span.start = i.first.offset) :
      IsTypeDeclaration s source ⟨i.first.offset, w.stop⟩
  | ofOther {i : Match Unit} {b : Cursor} {w : Word}
      (introduced : i ∈ otherIntroducers source.code) (body : otherBody? i = some b)
      (closes : ClosesAt otherTypeStep b w)
      (outermost : ∀ span ∈ findOtherTypes source.code, span.contains i.first.offset = true →
        span.start = i.first.offset) :
      IsTypeDeclaration s source ⟨i.first.offset, w.stop⟩

theorem IsTypeDeclaration.mem_unitTypes {text : String} {span : Span}
    (h : IsTypeDeclaration s (Masked.of .pascal text.toList) span) : span ∈ unitTypes s text := by
  cases h with
  | ofClass introduced body closes outermost =>
    obtain ⟨c, hc, hspan⟩ := exists_mem_findClasses introduced body closes outermost
    exact List.mem_append_left _ (List.mem_map.mpr ⟨c, hc, hspan⟩)
  | ofOther introduced body closes outermost =>
    exact List.mem_append_right _ (mem_findOtherTypes introduced body closes outermost)

/-- The heading of the routine whose header stands at a cursor. -/
def headingAt? (source : Masked) (d : Cursor) : Option Routine :=
  (Header.parse? (statementText d)).map (·.toRoutine (source.lineAt d.offset))

/-- The headers of the free routines of a unit: those that its interface declares, and those of its
implementation that no declaration stands for. -/
structure HasHeaders (s : ExtractionSettings) (path text : String)
    (declared implemented : List Cursor) : Prop where
  headings : ((readUnit s path text).routines.map fun r => some (heading r)).Perm
    ((declared ++ implemented).map (headingAt? (Masked.of .pascal text.toList)))
  walked : ∀ interface, (unitSections text).interface = some interface →
    IsWalked (unitTypes s text)
      (Cursor.within (Masked.of .pascal text.toList).code interface.start interface.stop) declared
  none_declared : (unitSections text).interface = none → declared = []
  read : ∃ nodes : List RoutineNode,
    nodes.Subperm (RoutineNode.descendantsOf (unitForest s text)) ∧
    List.Forall₂ (fun d r => r.start = d.offset) implemented nodes
  behind_interface : ∀ interface implementation, (unitSections text).interface = some interface →
    (unitSections text).implementation = some implementation →
    ∀ d ∈ implemented, interface.stop ≤ d.offset
  outside_types : ∀ span, IsTypeDeclaration s (Masked.of .pascal text.toList) span →
    ∀ d ∈ declared, span.contains d.offset = false
  outside_interface_types : ∀ span interface implementation,
    IsTypeDeclaration s (Masked.of .pascal text.toList) span →
    (unitSections text).interface = some interface →
    (unitSections text).implementation = some implementation → span.stop ≤ interface.stop →
    ∀ d ∈ declared ++ implemented, span.contains d.offset = false

theorem exists_implemented (s : ExtractionSettings) (text : String) {nodes : List RoutineNode}
    (h : nodes ⊆ RoutineNode.descendantsOf (unitForest s text)) :
    ∃ implemented : List Cursor,
      List.Forall₂ (fun d r => r.start = d.offset ∧
        Header.parse? (statementText d) = some r.header) implemented nodes ∧
      ∀ interface implementation, (unitSections text).interface = some interface →
        (unitSections text).implementation = some implementation →
        ∀ d ∈ implemented, interface.stop ≤ d.offset := by
  obtain ⟨n, hheaded, hn⟩ : ∃ n, (∀ r ∈ unitForest s text,
      IsHeaded (Masked.of .pascal text.toList).code n r) ∧
      ∀ interface implementation, (unitSections text).interface = some interface →
        (unitSections text).implementation = some implementation → interface.stop ≤ n := by
    have hstands := fun span : Span =>
      Cursor.standsIn_within (Masked.of .pascal text.toList).code span.start span.stop
    by_cases hboth : (unitSections text).interface.isSome ∧ (unitSections text).implementation.isSome
    · obtain ⟨interface, hi⟩ := Option.isSome_iff_exists.mp hboth.1
      obtain ⟨implementation, himpl⟩ := Option.isSome_iff_exists.mp hboth.2
      obtain ⟨hblank, hoffset⟩ := before_implementation hi himpl
      refine ⟨interface.stop, ?_, fun i _ hi' _ => by rw [Option.some.inj (hi.symm.trans hi')]⟩
      have hspan : (unitSections text).implementationSpan
          (width (Masked.of .pascal text.toList).code) = implementation := by
        rw [Sections.implementationSpan, himpl, Option.getD_some]
      refine IsHeaded.implementationRoutines _ _ (hstands _) (.inr ?_) (.refl _)
      rw [← unitSections, hspan]
      exact ⟨hblank, by rw [hoffset]; omega⟩
    · exact ⟨0, IsHeaded.implementationRoutines _ _ (hstands _) (.inl rfl) (.refl _),
        fun i _ hi himpl => absurd ⟨by simp [hi], by simp [himpl]⟩ hboth⟩
  have hheaders : ∀ r ∈ nodes, ∃ d : Cursor, n ≤ d.offset ∧ r.start = d.offset ∧
      Header.parse? (statementText d) = some r.header := by
    intro r hr
    obtain ⟨d, -, hle, hstart, hparse, -⟩ := IsHeaded.of_mem_descendantsOf hheaded r (h hr)
    exact ⟨d, hle, hstart, hparse⟩
  have : Nonempty Cursor := ⟨⟨0, [], []⟩⟩
  choose! header hheader using hheaders
  refine ⟨nodes.map header, ?_, fun i impl hi himpl d hd => ?_⟩
  · rw [List.forall₂_map_left_iff, List.forall₂_same]
    exact fun r hr => (hheader r hr).2
  · obtain ⟨r, hr, rfl⟩ := List.mem_map.mp hd
    exact (hn i impl hi himpl).trans (hheader r hr).1

theorem exists_declared (s : ExtractionSettings) (path text : String) :
    ∃ declared : List Cursor,
      (unitStart s path text).free.routines.toList.map (fun r => some (heading r)) =
        declared.map (headingAt? (Masked.of .pascal text.toList)) ∧
      (∀ interface, (unitSections text).interface = some interface →
        IsWalked (unitTypes s text)
          (Cursor.within (Masked.of .pascal text.toList).code interface.start interface.stop)
          declared) ∧
      ((unitSections text).interface = none → declared = []) := by
  have hheadings : ∀ (source : Masked) (declared : List Cursor) (rs : List Routine),
      List.Forall₂ (IsDeclaredAt source) declared rs →
      rs.map (fun r => some (heading r)) = declared.map (headingAt? source) := by
    intro source declared rs h
    induction h with
    | nil => rfl
    | cons hd _ ih =>
      obtain ⟨header, hparse, rfl⟩ := hd
      rw [List.map_cons, List.map_cons, ih, headingAt?, hparse]
      rfl
  rw [unitStart]
  simp only [routines_foldl_push, List.nil_append]
  split
  · next interface hi =>
    obtain ⟨declared, hdeclared, hwalked⟩ := exists_headers (Masked.of .pascal text.toList)
      (unitTypes s text)
      (Cursor.within (Masked.of .pascal text.toList).code interface.start interface.stop)
    refine ⟨declared, hheadings _ _ _ hdeclared, fun span hspan => ?_, fun hnone => ?_⟩
    · obtain rfl := Option.some.inj (hi.symm.trans hspan)
      exact hwalked
    · exact absurd (hi.symm.trans hnone) (by simp)
  · next hi =>
    exact ⟨[], rfl, fun span hspan => absurd (hspan.symm.trans hi) (by simp), fun _ => rfl⟩

/-- The free routines of a unit are those whose headers the walk over the interface reports, and
routines of the implementation, whose headers stand behind the interface. No header stands in the
recognized body of a type declaration of the interface. -/
theorem headers_readUnit (s : ExtractionSettings) (path text : String) :
    ∃ declared implemented, HasHeaders s path text declared implemented := by
  obtain ⟨declared, hheadings, hwalked, hnone⟩ := exists_declared s path text
  obtain ⟨nodes, hnodes, hrun⟩ := Assembly.exists_headings_addTopLevels path
    (Masked.of .pascal text.toList) s (unitStart s path text) (unitForest s text)
  obtain ⟨implemented, hread, hbehind⟩ := exists_implemented s text hnodes.subset
  have houtside : ∀ span, IsTypeDeclaration s (Masked.of .pascal text.toList) span →
      ∀ d ∈ declared, span.contains d.offset = false := by
    intro span hspan d hd
    cases hi : (unitSections text).interface with
    | none => simp [hnone hi] at hd
    | some interface => exact (hwalked interface hi).outside d hd span hspan.mem_unitTypes
  refine ⟨declared, implemented, ⟨?_, hwalked, hnone, ⟨nodes, hnodes, hread.imp fun _ _ h => h.1⟩,
    hbehind, houtside, fun span interface implementation hspan hi himpl hle d hd => ?_⟩⟩
  · have himplemented : nodes.map (fun n =>
        some (heading (n.toRoutine (Masked.of .pascal text.toList) s))) =
          implemented.map (headingAt? (Masked.of .pascal text.toList)) := by
      clear hnodes hrun hbehind
      -- on the nodes with their headers: each is read where its node starts
      induction hread with
      | nil => rfl
      | cons h _ ih =>
        rw [List.map_cons, List.map_cons, ih, headingAt?, h.2, heading_toRoutine, h.1]
        rfl
    have := hrun.map some
    rw [List.map_append, List.map_map, List.map_map, List.map_map] at this
    rw [List.map_append, ← hheadings, ← himplemented]
    exact this
  · rcases List.mem_append.mp hd with hd | hd
    · exact houtside span hspan d hd
    · have := hbehind interface implementation hi himpl d hd
      simp only [Span.contains, decide_eq_false_iff_not, not_and, not_lt]
      exact fun _ => hle.trans this

end MigrationAudit.Pascal
