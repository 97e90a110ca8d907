import MigrationAudit.Proofs.Pascal.Components
import MigrationAudit.Proofs.Pascal.HeaderWalk
import MigrationAudit.Proofs.Pascal.ReadHeaders
import MigrationAudit.Proofs.Source.Lines
import MigrationAudit.Proofs.Sql.Statements

/-!
# Lines of Pascal units

A class is recorded on the line of its introducer, a member on that of its declaration behind the
words in front of it, a routine on that of its header, and an operation on the line of its field, its
call or its literal. A character of the code stands at each of these places, and completing a
declaration with its implementation keeps the line of the declaration.
-/

namespace MigrationAudit.Pascal

open Text Source

variable {P : Nat → Prop} {source : Masked} {s : ExtractionSettings} {owner path : String}

/-! ## Members -/

theorem line_of_property? {text : List Char} {visibility : Visibility} {line : Nat} {f : Field}
    (h : property? text visibility line = some f) : f.line = line := by
  simp only [property?, Option.bind_eq_bind, Option.bind_eq_some_iff] at h
  obtain ⟨_, -, _, -, hf⟩ := h
  split at hf
  all_goals
    obtain ⟨rest, -, hf⟩ := Option.bind_eq_some_iff.mp hf
    obtain rfl := Option.some.inj hf
    rfl

/-- The members read so far stand on lines of a kind. -/
structure Members.LinesIn (P : Nat → Prop) (m : Members) : Prop where
  fields : ∀ f ∈ m.fields, P f.line
  methods : ∀ r ∈ m.methods, P r.line
  components : ∀ op ∈ m.components, P op.line

namespace Members.LinesIn

variable {m : Members}

theorem empty : LinesIn P {} := ⟨by simp, by simp, by simp⟩

theorem addFields (h : m.LinesIn P) {fields : List Field} (hfields : ∀ f ∈ fields, P f.line) :
    (m.addFields s owner fields).LinesIn P where
  fields := List.forall_mem_append.mpr ⟨h.fields, hfields⟩
  methods := h.methods
  components := by
    refine List.forall_mem_append.mpr ⟨h.components, fun op hop => ?_⟩
    obtain ⟨f, hf, hop⟩ := List.mem_filterMap.mp hop
    obtain ⟨type, -, -, rfl⟩ := component?_eq_some_iff.mp hop
    exact hfields f hf

theorem addDirective (h : m.LinesIn P) (directive : String) :
    (m.addDirective directive).LinesIn P := by
  unfold Members.addDirective
  split
  · next last hlast =>
    refine { h with methods := List.forall_mem_append.mpr ⟨fun r hr => ?_, ?_⟩ }
    · exact h.methods r (List.dropLast_subset _ hr)
    · exact List.forall_mem_singleton.mpr (h.methods last (List.mem_of_getLast? hlast))
  · exact h

theorem readFields (h : m.LinesIn P) {line : Nat} (hline : P line) (opens closes : Nat)
    (text : List Char) : (m.readFields s owner opens closes text line).LinesIn P := by
  unfold Members.readFields
  split
  · exact h
  · refine addFields ?_ fun f hf => ?_
    · split
      · exact ⟨h.fields, h.methods, h.components⟩
      · exact h
    · obtain ⟨name, -, rfl⟩ := List.mem_map.mp hf
      exact hline

theorem readDeclaration (h : m.LinesIn P) {line : Nat} (hline : P line) (opens closes : Nat)
    (text : List Char) : (m.readDeclaration s owner opens closes text line).LinesIn P := by
  unfold Members.readDeclaration
  simp only
  split
  · split
    · exact ⟨h.fields, List.forall_mem_append.mpr
        ⟨h.methods, List.forall_mem_singleton.mpr hline⟩, h.components⟩
    · exact ⟨h.fields, h.methods, h.components⟩
  split
  · exact h.addDirective _
  split
  · split
    · next field hproperty =>
      refine ⟨List.forall_mem_append.mpr ⟨h.fields, List.forall_mem_singleton.mpr ?_⟩, h.methods,
        h.components⟩
      rwa [line_of_property? hproperty]
    · exact h
  split
  · exact h
  · exact h.readFields hline opens closes text

theorem note (h : m.LinesIn source.HasLine) (hlines : source.CountsLines) {p : Nat × List Char}
    (hp : p.1 + width p.2 ≤ width source.code) :
    (m.note source s owner p).LinesIn source.HasLine := by
  obtain ⟨n, text⟩ := p
  simp only [Members.note]
  split
  · exact ⟨h.fields, h.methods, h.components⟩
  split
  · exact ⟨h.fields, h.methods, h.components⟩
  · next hne =>
    have hlead := leads_memberContext { m.context with classLevel := false } ⟨n, [], text⟩
    have hlimit := Cursor.offset_add_width_after hlead
    have hpos := width_pos (by simpa using hne)
    have hcontext : LinesIn source.HasLine { m with
        context := (MemberContext.read { m.context with classLevel := false } ⟨n, [], text⟩).1 } :=
      ⟨h.fields, h.methods, h.components⟩
    refine hcontext.readDeclaration (hlines _ ?_) ..
    simp only at hp hlimit
    omega

theorem read (hlines : source.CountsLines) {front body back : List Char}
    (hcode : source.code = front ++ (body ++ back)) :
    (Members.read source s owner ⟨width front, width front + width body⟩).LinesIn
      source.HasLine := by
  have hslice : (Span.mk (width front) (width front + width body)).slice source.code = body := by
    rw [hcode, ← width_append, Span.slice_width]
  rw [Members.read, hslice]
  refine List.foldlRecOn (motive := fun m : Members => m.LinesIn source.HasLine) _ _ .empty
    fun m h p hp => h.note hlines ?_
  obtain ⟨front', back', hbody, hstart, -⟩ := exists_of_mem_statements hp
  rw [hstart, hcode, hbody]
  simp only [width_append]
  omega

end Members.LinesIn

/-! ## Classes -/

theorem linesIn_findClasses (hlines : source.CountsLines) {c : ParsedClass}
    (hc : c ∈ findClasses source s) :
    c.facts.LinesIn source.HasLine ∧ ∀ op ∈ c.components, source.HasLine op.line := by
  obtain ⟨first, hfirst, hne, hline, hbody⟩ := exists_introducer_of_mem_findClasses hc
  have hown : source.HasLine c.facts.line := by
    rw [hline]
    exact hlines.of_standsIn ((Cursor.standsIn_ofText _).of_leads hfirst) hne
  rcases hbody with ⟨hfields, hmethods, hcomponents⟩ | ⟨front, body, back, hbody⟩
  · exact ⟨⟨hown, by simp [hmethods], by simp [hfields]⟩, by simp [hcomponents]⟩
  · have hread := @Members.LinesIn.read source s c.facts.name hlines _ _ _ hbody.code_eq
    refine ⟨⟨hown, ?_, ?_⟩, ?_⟩
    · rw [hbody.methods_eq]
      exact hread.methods
    · rw [hbody.fields_eq]
      exact hread.fields
    · rw [hbody.components_eq]
      exact hread.components

/-! ## Routines -/

theorem after_ne_nil_of_parse? {d : Cursor} {h : Header}
    (hparse : Header.parse? (statementText d) = some h) : d.after ≠ [] := by
  intro hnil
  rw [statementText, hnil] at hparse
  simp [splitStatement, Header.parse?, leadingWord?, trimStart] at hparse

theorem lines_interfaceRoutines (hlines : source.CountsLines) (skipped : List Span) {c : Cursor}
    (hc : c.StandsIn source.code) :
    ∀ r ∈ interfaceRoutines source skipped c, source.HasLine r.line := by
  obtain ⟨headers, hdeclared, hwalked⟩ := exists_headers source skipped c
  have hahead := hwalked.ahead
  generalize interfaceRoutines source skipped c = rs at hdeclared ⊢
  clear hwalked
  induction hdeclared with
  | nil => exact List.forall_mem_nil _
  | @cons d r headers rs hd _ ih =>
    obtain ⟨h, hparse, rfl⟩ := hd
    obtain ⟨hlead, hahead⟩ := List.forall_mem_cons.mp hahead
    exact List.forall_mem_cons.mpr
      ⟨hlines.of_standsIn (hc.of_leads hlead) (after_ne_nil_of_parse? hparse), ih hahead⟩

theorem line_toRoutine (r : RoutineNode) :
    (r.toRoutine source s).line = source.lineAt r.start := by
  rw [RoutineNode.toRoutine]
  cases r.body <;> rfl

theorem hasLine_of_isHeaded {n : Nat} {r : RoutineNode} (hlines : source.CountsLines)
    (h : IsHeaded source.code n r) : source.HasLine (source.lineAt r.start) := by
  obtain ⟨d, hstands, -, hstart, hparse, -⟩ := h
  rw [hstart]
  exact hlines.of_standsIn hstands (after_ne_nil_of_parse? hparse)

namespace Assembly

/-- What has been put into a unit stands on lines of a kind. -/
structure LinesIn (P : Nat → Prop) (a : Assembly) : Prop where
  routines : ∀ r ∈ a.routines, P r.line
  classes : ∀ c ∈ a.classes, P c.facts.line ∧ ∀ f ∈ c.facts.fields, P f.line
  diagnostics : ∀ d ∈ a.diagnostics, d.LineIn P

theorem linesIn_record {a : Assembly} (h : a.LinesIn P) {r : RoutineNode} {facts : Routine}
    (hline : P facts.line) (name : String) : (a.record path s r facts name).LinesIn P where
  routines := h.routines
  classes := h.classes
  diagnostics := by
    refine List.forall_mem_append.mpr ⟨h.diagnostics, List.forall_mem_append.mpr ⟨?_, ?_⟩⟩
    all_goals
      split
      · exact List.forall_mem_singleton.mpr (Diagnostic.lineIn_malformed hline _ _)
      · exact List.forall_mem_nil _

theorem linesIn_addNested {a : Assembly} (h : a.LinesIn P) {r : RoutineNode}
    (hline : P (source.lineAt r.start)) : (a.addNested path source s r).LinesIn P := by
  have hfacts : P (r.toRoutine source s).line := by rwa [line_toRoutine]
  obtain ⟨hroutines, hclasses, hdiagnostics⟩ : (a.record path s r (r.toRoutine source s)
      (r.toRoutine source s).name).LinesIn P := linesIn_record h hfacts _
  refine ⟨?_, hclasses, hdiagnostics⟩
  obtain ⟨hfree, hmethods⟩ := List.forall_mem_append.mp hroutines
  refine List.forall_mem_append.mpr ⟨?_, hmethods⟩
  rw [addNested]
  simp only [RoutineTable.routines_push]
  exact List.forall_mem_append.mpr ⟨hfree, List.forall_mem_singleton.mpr hfacts⟩

theorem linesIn_attach {a : Assembly} (h : a.LinesIn P) {facts : Routine} (hline : P facts.line) :
    (a.attach facts).LinesIn P := by
  have hroutines := (placed_routines_attach a facts).forall (P := fun r => P r.line)
    (fun d hd _ => hd) (fun _ => hline) h.routines
  unfold attach at hroutines ⊢
  cases hclass : a.classOf? facts with
  | some i =>
    simp only [hclass] at hroutines ⊢
    refine ⟨hroutines, fun c hc => ?_, h.diagnostics⟩
    -- an implementation changes only the methods of its class
    obtain ⟨j, hj⟩ := List.mem_iff_getElem?.mp hc
    rw [List.getElem?_modify, Option.map_eq_map, Option.map_eq_some_iff] at hj
    obtain ⟨d, hd, rfl⟩ := hj
    have hown := h.classes d (List.mem_of_getElem? hd)
    split <;> exact hown
  | none =>
    simp only [hclass] at hroutines ⊢
    refine ⟨hroutines, ?_, ?_⟩
    · split <;> exact h.classes
    · split <;> exact h.diagnostics

/-- The step: a top-level routine stands on its line, with all that is nested in it. -/
theorem linesIn_addTopLevel {a : Assembly} (h : a.LinesIn P) {r : RoutineNode}
    (hline : P (source.lineAt r.start))
    (hnested : ∀ n ∈ r.descendants, P (source.lineAt n.start)) :
    (a.addTopLevel path source s r).LinesIn P := by
  have hfacts : P (r.toRoutine source s).line := by rwa [line_toRoutine]
  refine linesIn_attach ?_ hfacts
  exact List.foldlRecOn (motive := fun a : Assembly => a.LinesIn P) _ _ (linesIn_record h hfacts _)
    fun a ha n hn => linesIn_addNested ha (hnested n hn)

/-- The run: all routines of the implementation stand on their lines. -/
theorem linesIn_foldl_addTopLevel {a : Assembly} (h : a.LinesIn P) {forest : List RoutineNode}
    (hlines : ∀ n ∈ RoutineNode.descendantsOf forest, P (source.lineAt n.start)) :
    (forest.foldl (addTopLevel path source s) a).LinesIn P := by
  induction forest generalizing a with
  | nil => exact h
  | cons r forest ih =>
    rw [RoutineNode.descendantsOf_cons, ← RoutineNode.descendants_eq] at hlines
    obtain ⟨hline, hlines⟩ := List.forall_mem_cons.mp hlines
    obtain ⟨hnested, hlines⟩ := List.forall_mem_append.mp hlines
    exact ih (linesIn_addTopLevel h hline hnested) hlines

end Assembly

/-! ## Units -/

theorem linesIn_unitDone (s : ExtractionSettings) (path text : String) :
    (unitDone s path text).LinesIn (Masked.of .pascal text.toList).HasLine := by
  have hlines := Masked.countsLines_of .pascal text.toList
  refine Assembly.linesIn_foldl_addTopLevel ⟨?_, ?_, ?_⟩ fun n hn => ?_
  · refine List.forall_mem_append.mpr ⟨?_, fun r hr => ?_⟩
    · rw [unitStart]
      simp only [routines_foldl_push, List.nil_append]
      split
      · exact lines_interfaceRoutines hlines _ (Cursor.standsIn_within ..)
      · exact List.forall_mem_nil _
    · obtain ⟨c, hc, hmethod⟩ := List.mem_flatMap.mp hr
      exact (linesIn_findClasses hlines hc).1.methods r hmethod
  · intro c hc
    have hclass := (linesIn_findClasses hlines hc).1
    exact ⟨hclass.own, hclass.fields⟩
  · intro d hd
    obtain ⟨c, hc, rfl⟩ := List.mem_map.mp hd
    exact Diagnostic.lineIn_malformed
      (linesIn_findClasses hlines (List.mem_of_mem_filter hc)).1.own _ _
  · have hheaded := IsHeaded.of_mem_descendantsOf (IsHeaded.implementationRoutines (n := 0) _ _
      (Cursor.standsIn_within ..) (.inl rfl) (.refl _)) n hn
    exact hasLine_of_isHeaded hlines hheaded

theorem lines_findCalls (hlines : source.CountsLines) (regions : List Span)
    (components : List String) (owners : List OwnerSpan) :
    ∀ op ∈ findCalls source regions components owners s, source.HasLine op.line := by
  intro op hop
  obtain ⟨region, -, hop⟩ := List.mem_flatMap.mp hop
  obtain ⟨w, hw, hop⟩ := List.mem_filterMap.mp hop
  have hfirst := (Cursor.leadsWhole_of_mem_words hw).1.leads
  have hwhole := Cursor.isWhole_of_mem_words hw
  have hne : w.first.after ≠ [] := by
    rw [hwhole.after_eq]
    exact List.append_ne_nil_of_left_ne_nil hwhole.ne_nil _
  simp only [Option.bind_eq_bind, Option.bind_eq_some_iff] at hop
  obtain ⟨receiver, -, kind, -, hop⟩ := hop
  obtain rfl := Option.some.inj hop
  exact hlines.of_standsIn ((Cursor.standsIn_within ..).of_leads hfirst) hne

theorem lines_findSql {t : List Char} (owners : List OwnerSpan) :
    ∀ op ∈ findSql (.of .pascal t) owners, (Masked.of .pascal t).HasLine op.line := by
  intro op hop
  obtain ⟨x, -, hop⟩ := List.mem_filterMap.mp hop
  obtain ⟨l, hl, rfl⟩ := Option.map_eq_some_iff.mp hop
  exact Masked.hasLine_of_mem_literals (List.mem_of_getElem? hl)

theorem keepsLines_readUnit (s : ExtractionSettings) (path text : String) :
    (readUnit s path text).KeepsLines := by
  have hlines := Masked.countsLines_of .pascal text.toList
  have hdone := linesIn_unitDone s path text
  constructor
  case classes =>
    intro c hc
    obtain ⟨_, hfacts, rfl⟩ := List.mem_map.mp hc
    obtain ⟨parsed, hparsed, rfl⟩ := List.mem_map.mp hfacts
    obtain ⟨hown, hfields⟩ := hdone.classes parsed hparsed
    refine ⟨hown, fun r hr => ?_, hfields⟩
    exact hdone.routines r (List.mem_append_right _ (List.mem_flatMap.mpr ⟨parsed, hparsed, hr⟩))
  case routines => exact fun r hr => hdone.routines r (List.mem_append_left _ hr)
  case dataOps =>
    intro op hop
    rcases List.mem_append.mp ((sortBy_perm _ _).mem_iff.mp hop) with hop | hop
    · rcases List.mem_append.mp hop with hop | hop
      · obtain ⟨c, hc, hop⟩ := List.mem_flatMap.mp hop
        exact (linesIn_findClasses hlines hc).2 op hop
      · exact lines_findCalls hlines _ _ _ op hop
    · exact lines_findSql _ op hop
  case diagnostics => exact hdone.diagnostics
  case sum_eq => exact Masked.sum_lineCounts _
  case sorted => exact pairwise_line_sortBy _

end MigrationAudit.Pascal
