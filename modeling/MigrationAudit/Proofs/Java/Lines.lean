import MigrationAudit.Java.Unit
import MigrationAudit.Proofs.Java.Arguments
import MigrationAudit.Proofs.Java.Walks
import MigrationAudit.Proofs.Lists
import MigrationAudit.Proofs.Source.Lines
import MigrationAudit.Proofs.Sql.Statements

/-!
# Lines of Java units

A type is recorded on the line of its name, a method on that of its name, a field on the line where
its declaration starts behind the prefix, a component of a record on that of the parenthesis, and an
operation on the line of its type, its method or its literal. A character of the code stands at each
of these places.
-/

namespace MigrationAudit.Java

open Text Source

variable {t : List Char} {w : Walk} {c d : Cursor}

/-- The name at the end of a text stands in it, behind the type. -/
theorem append_of_trailingName? {cs type name : List Char}
    (h : trailingName? cs = some (type, name)) :
    ∃ back, cs = type ++ (name ++ back) ∧ name ≠ [] := by
  simp only [trailingName?] at h
  generalize hrest : (cs.reverse.dropWhile isBlank).dropWhile
    (fun c => c == '[' || c == ']' || c == ' ') = rest at h
  have hsuffix : rest <:+ cs.reverse :=
    hrest ▸ (List.dropWhile_suffix _).trans (List.dropWhile_suffix _)
  obtain ⟨back, hback⟩ := hsuffix
  have hcs : cs = rest.reverse ++ back.reverse := by
    rw [← List.reverse_append, hback, List.reverse_reverse]
  have hsplit : (rest.dropWhile isNamePart).reverse ++ (rest.takeWhile isNamePart).reverse =
      rest.reverse := by
    rw [← List.reverse_append, List.takeWhile_append_dropWhile]
  split at h
  · simp at h
  · next hne =>
    split at h
    · simp at h
    · obtain ⟨rfl, rfl⟩ := Prod.mk.inj (Option.some.inj h)
      exact ⟨back.reverse, by rw [hcs, ← hsplit, List.append_assoc], hne⟩

theorem textBetween_of_leads (h : c.Leads d) :
    c.after = textBetween c d ++ d.after ∧ d.offset = c.offset + width (textBetween c d) := by
  obtain ⟨moved, hafter, hd⟩ := h
  have htext : textBetween c d = moved := by
    rw [textBetween, hd, Cursor.offset_advance, Nat.add_sub_cancel_left, hafter,
      takeBytes_width_append]
  rw [htext]
  exact ⟨hafter, by rw [hd, Cursor.offset_advance]⟩

/-! ## Declarations -/

def onLines (m : Masked) : Traits where
  field f := m.HasLine f.line
  method r := m.HasLine r.routine.line
  type u := m.HasLine u.line
  diagnostic d := d.LineIn m.HasLine

theorem onLines_readFields {owner : Owner} {p : Prefix} {mark behind : Cursor} {s : Scope}
    (hlines : w.source.CountsLines) (hc : c.StandsIn w.source.code) (hne : c.after ≠ [])
    (h : readFields w owner p c mark = .members s behind) : s.Has (onLines w.source) := by
  simp only [readFields, Item.members.injEq] at h
  obtain ⟨rfl, -⟩ := h
  refine { Scope.Has.empty with fields := fun f hf => ?_ }
  obtain ⟨part, -, hpart⟩ := List.mem_filterMap.mp hf
  obtain ⟨parts, -, rfl⟩ := Option.map_eq_some_iff.mp hpart
  exact hlines.of_standsIn hc hne

theorem onLines_readMethod {owner : Owner} {p : Prefix} {start paren behind : Cursor} {s : Scope}
    (hlines : w.source.CountsLines) (hc : c.StandsIn w.source.code) (hparen : c.Leads paren)
    (h : readMethod w owner p start c paren = .members s behind) : s.Has (onLines w.source) := by
  unfold readMethod at h
  split at h
  · cases h
  · next type name hname =>
    -- the name of the method stands in front of the parenthesis
    have hline : w.source.HasLine (w.source.lineAt (c.offset + width type)) := by
      obtain ⟨back, htext, hne⟩ := append_of_trailingName? hname
      have hoffset := (textBetween_of_leads hparen).2
      have hle := (hc.of_leads hparen).offset_le
      have hpos := width_pos hne
      rw [hoffset, htext, width_append, width_append] at hle
      exact hlines _ (by omega)
    have hnote : ∀ reason,
        (Diagnostic.malformed w.path reason (w.source.lineAt (c.offset + width type))).LineIn
          w.source.HasLine := Diagnostic.lineIn_malformed hline w.path
    have hnotes : ∀ (closed : Bool) (delimiter : String), ∀ note ∈
        (if closed then [] else [w.unclosed "method" name (c.offset + width type) delimiter]),
          note.LineIn w.source.HasLine := by
      intro closed delimiter
      cases closed
      · exact List.forall_mem_singleton.mpr (hnote _)
      · exact List.forall_mem_nil _
    simp only at h
    split at h
    · cases h
      exact { Scope.Has.empty with diagnostics := List.forall_mem_singleton.mpr (hnote _) }
    · split at h
      · cases h
        exact {
          Scope.Has.empty with
          methods := List.forall_mem_singleton.mpr hline
          diagnostics := hnotes _ _ }
      · cases h
        exact { Scope.Has.empty with methods := List.forall_mem_singleton.mpr hline }

theorem onLines_readMember {owner : Owner} {p : Prefix} {start behind : Cursor} {s : Scope}
    (hlines : w.source.CountsLines) (hc : c.StandsIn w.source.code) (hne : c.after ≠ [])
    (h : readMember w owner p start c = .members s behind) : s.Has (onLines w.source) := by
  unfold readMember at h
  simp only at h
  split at h
  · cases h
  · exact onLines_readMethod hlines hc (leads_memberMark c) h
  · cases h
  · exact onLines_readFields hlines hc hne h

theorem exists_line_of_read (m : Masked) (kind : TypeKind) (c : Cursor) :
    ∃ paren, c.Leads paren ∧ ∀ f ∈ (TypeHead.read m kind c).fields,
      paren.after ≠ [] ∧ f.line = m.lineAt paren.offset := by
  have hblank : ∀ d : Cursor, d.Leads d.skipBlank := fun d => Cursor.leads_skipWhile ..
  have hmem : ∀ (closed : Bool) (fields : List Field) (d e : Cursor), ∀ f ∈
      (if closed then (fields, d) else ([], e)).1, f ∈ fields := by
    intro closed fields d e f hf
    cases closed
    · cases hf
    · exact hf
  unfold TypeHead.read
  simp only
  split
  · next hopen =>
    refine ⟨_, .trans ?_ (hblank _), fun f hf => ⟨ne_of_eq_of_ne hopen (List.cons_ne_nil _ _), ?_⟩⟩
    · split
      · split
        · exact (hblank c).trans (leads_delimited ..)
        · exact hblank c
      · exact hblank c
    · obtain ⟨param, -, rfl⟩ := List.mem_map.mp (hmem _ _ _ _ f hf)
      rfl
  · exact ⟨c, .refl c, nofun⟩

theorem onLines_readType {p : Prefix} {kind : TypeKind} {topLevel : Bool} {behind : Cursor}
    {u : OpenType} (hlines : w.source.CountsLines) (hd : d.StandsIn w.source.code)
    (h : readType w p kind topLevel c d = .type u behind) : u.Has (onLines w.source) w := by
  unfold readType at h
  split at h
  · cases h
  · next name hname =>
    obtain ⟨hfirst, hbehind⟩ := Cursor.leads_adjacentWord? hname
    have hline : w.source.HasLine (w.source.lineAt name.start) :=
      hlines.of_standsIn (hd.of_leads hfirst) (Cursor.after_of_adjacentWord? hname)
    simp only at h
    split at h
    · cases h
    · cases h
    · cases h
      refine ⟨fun _ _ => hline, ?_, ?_, Diagnostic.lineIn_malformed hline _ _⟩
      · intro f hf
        obtain ⟨paren, hlead, hparen⟩ := exists_line_of_read w.source kind (name.behind.upTo _)
        obtain ⟨hne, hf⟩ := hparen f hf
        have hstands := ((hd.of_leads (hfirst.trans hbehind)).upTo _).of_leads hlead
        change w.source.HasLine f.line
        rw [hf]
        exact hlines.of_standsIn hstands hne
      · unfold OpenType.unclosed
        split
        · exact List.forall_mem_nil _
        · exact List.forall_mem_singleton.mpr (Diagnostic.lineIn_malformed hline _ _)

theorem onLines_nextItem (hlines : w.source.CountsLines) (owner : Option Owner)
    (hc : c.StandsIn w.source.code) : (nextItem w owner c).Has (onLines w.source) w := by
  cases hitem : nextItem w owner c with
  | nothing => trivial
  | skipped behind => trivial
  | members s behind =>
    obtain ⟨o, hne, hread⟩ := nextItem_eq_members hitem
    exact onLines_readMember hlines (hc.of_leads (leads_readPrefix c)) hne hread
  | type u behind =>
    obtain ⟨kind, topLevel, keyword, d, hkeyword, hd, hread⟩ := nextItem_eq_type hitem
    exact onLines_readType hlines (hc.of_leads (hkeyword.trans hd)) hread

/-! ## Units -/

theorem onLines_unitTypes (s : ExtractionSettings) (path text : String) :
    (∀ t ∈ (readTypes (.of .java text.toList) path s.maxNestingDepth).1,
      t.facts.LinesIn (Masked.of .java text.toList).HasLine) ∧
    ∀ d ∈ (readTypes (.of .java text.toList) path s.maxNestingDepth).2,
      d.LineIn (Masked.of .java text.toList).HasLine := by
  have hhas := has_readScope
    (fun owner c hc => onLines_nextItem (w := ⟨.of .java text.toList, path, max 1 s.maxNestingDepth⟩)
      (Masked.countsLines_of .java text.toList) owner hc) none 0 (Cursor.standsIn_ofText _)
  refine ⟨fun t ht => ?_, hhas.diagnostics⟩
  obtain ⟨hown, hfields, hmethods⟩ := hhas.types t ht
  refine ⟨hown, fun r hr => ?_, hfields⟩
  obtain ⟨m, hm, rfl⟩ := List.mem_map.mp hr
  exact hmethods m hm

variable {m : Masked} {P : Nat → Prop} {t : ParsedType}

theorem linesIn_typeReading (h : t.facts.LinesIn P) : (TypeReading.of m t).facts.LinesIn P := by
  refine ⟨h.own, fun r hr => ?_, h.fields⟩
  obtain ⟨reading, hreading, rfl⟩ := List.mem_map.mp hr
  obtain ⟨method, hmethod, rfl⟩ := List.mem_map.mp hreading
  exact h.methods method.routine (List.mem_map_of_mem hmethod)

theorem lines_ops_typeReading (h : t.facts.LinesIn P) :
    ∀ op ∈ (TypeReading.of m t).ops, P op.line := by
  intro op hop
  rcases List.mem_append.mp hop with hop | hop
  · obtain ⟨e, -, rfl⟩ := Option.map_eq_some_iff.mp (Option.mem_toList.mp hop)
    exact h.own
  · obtain ⟨reading, hreading, hop⟩ := List.mem_filterMap.mp hop
    obtain ⟨method, hmethod, rfl⟩ := List.mem_map.mp hreading
    obtain ⟨q, -, rfl⟩ := Option.map_eq_some_iff.mp hop
    exact h.methods method.routine (List.mem_map_of_mem hmethod)

theorem lines_looseStatements {t : List Char} (queried : List Nat) (owners : List OwnerSpan) :
    ∀ op ∈ looseStatements (.of .java t) queried owners,
      (Masked.of .java t).HasLine op.line := by
  intro op hop
  obtain ⟨x, -, hop⟩ := List.mem_filterMap.mp hop
  obtain ⟨l, hl, rfl⟩ := Option.map_eq_some_iff.mp hop
  exact Masked.hasLine_of_mem_literals (List.mem_of_getElem? hl)

theorem keepsLines_readUnit (s : ExtractionSettings) (path text : String) :
    (readUnit s path text).KeepsLines := by
  obtain ⟨htypes, hdiagnostics⟩ := onLines_unitTypes s path text
  constructor
  case classes =>
    intro c hc
    obtain ⟨_, hfacts, rfl⟩ := List.mem_map.mp hc
    obtain ⟨_, hreading, rfl⟩ := List.mem_map.mp hfacts
    obtain ⟨t, ht, rfl⟩ := List.mem_map.mp hreading
    obtain ⟨hown, hmethods, hfields⟩ := linesIn_typeReading (htypes t ht)
    exact ⟨hown, hmethods, hfields⟩
  case routines => exact List.forall_mem_nil _
  case dataOps =>
    intro op hop
    rcases List.mem_append.mp ((sortBy_perm _ _).mem_iff.mp hop) with hop | hop
    · obtain ⟨_, hreading, hop⟩ := List.mem_flatMap.mp hop
      obtain ⟨t, ht, rfl⟩ := List.mem_map.mp hreading
      exact lines_ops_typeReading (htypes t ht) op hop
    · exact lines_looseStatements _ _ op hop
  case diagnostics => exact hdiagnostics
  case sum_eq => exact Masked.sum_lineCounts _
  case sorted => exact pairwise_line_sortBy _

end MigrationAudit.Java
