import MigrationAudit.Proofs.Lists
import MigrationAudit.Proofs.Pascal.Components
import MigrationAudit.Proofs.Sql.Statements
import MigrationAudit.Proofs.Text.Ahead
import MigrationAudit.Proofs.Text.Suffixes

/-!
# Calls on dataset components

A call of a dataset method is recorded when the name in front of its dot is a component name of the
text. These names are collected apart from the classes, so a component that a class records has its
calls recorded when its declaration is a plain one, or when the text declares the name plainly
elsewhere.
-/

namespace MigrationAudit.Pascal

open Text Source

variable {source : Masked} {s : ExtractionSettings} {op : DataOp} {components : List String}

/-- The parts of a text in which calls are looked for: the implementation, and what stands behind
it. -/
def callRegions (code : List Char) : List Span :=
  let sections := Sections.find code ((FileHeader.find? code).elim 0 (·.stop))
  sections.implementationSpan (width code) :: sections.tail.toList

/-! ## Names in front of a dot -/

/-- A receiver and a method are read off their call, since a dot is no part of a name. -/
theorem call_inj {receiver receiver' method method' : List Char}
    (hmethod : ∀ a ∈ method, isIdent a = true) (hmethod' : ∀ a ∈ method', isIdent a = true)
    (h : String.ofList receiver ++ "." ++ String.ofList method =
      String.ofList receiver' ++ "." ++ String.ofList method') :
    receiver = receiver' ∧ method = method' := by
  have hdot : isIdent '.' = false := by decide
  have hfree : ∀ cs : List Char, (∀ a ∈ cs, isIdent a = true) → '.' ∉ cs := fun cs hcs hmem => by
    simp [hcs '.' hmem] at hdot
  have hlists := congrArg String.toList h
  simp only [String.toList_append, String.toList_ofList, List.append_assoc] at hlists
  exact append_cons_inj (hfree method hmethod) (hfree method' hmethod') hlists

/-! ## Calls -/

theorem callKind?_eq_datasetCall_iff {receiver method : String} :
    callKind? s components receiver method = some .datasetCall ↔
      holdsName s.transactionMethods method = false ∧ holdsName s.datasetMethods method = true ∧
        (receiver.toLower ∈ components ∨ holdsName alwaysDataMethods method = true) := by
  unfold callKind?
  split
  · next htransaction => simp [htransaction]
  · next htransaction =>
    rw [Bool.not_eq_true] at htransaction
    split
    · next hcall => simpa [htransaction] using hcall
    · next hcall => simpa [htransaction] using hcall

theorem mem_findCalls_iff {regions : List Span} {owners : List OwnerSpan} :
    op ∈ findCalls source regions components owners s ↔
      ∃ region ∈ regions, ∃ w ∈ (Cursor.within source.code region.start region.stop).words,
        ∃ receiver, receiver? w.first = some receiver ∧ ∃ kind,
          callKind? s components (String.ofList receiver) (String.ofList w.text) = some kind ∧
            op =
              { kind
                raw := String.ofList receiver ++ "." ++ String.ofList w.text
                owner := ownerAt? owners w.start
                line := source.lineAt w.start } := by
  simp only [findCalls, List.mem_flatMap, List.mem_filterMap, Option.bind_eq_bind,
    Option.bind_eq_some_iff, Option.some.injEq, eq_comm (b := op)]

theorem kind_ne_of_mem_findSql {owners : List OwnerSpan} (h : op ∈ findSql source owners) :
    op.kind ≠ .datasetCall := by
  obtain ⟨x, hx, hop⟩ := List.mem_filterMap.mp h
  obtain ⟨l, -, hkind, -⟩ := Sql.literal_of_mem_statements hx
  obtain ⟨l', -, rfl⟩ := Option.map_eq_some_iff.mp hop
  intro heq
  have hsql := Sql.isSql_of_kindOf? hkind
  simp only at heq
  rw [heq] at hsql
  exact absurd hsql (by decide)

theorem kind_of_mem_components {c : ParsedClass} (hc : c ∈ findClasses source s)
    (hop : op ∈ c.components) : op.kind = .component := by
  obtain ⟨front, body, back, -, -, -, -, hread⟩ :=
    exists_body_of_mem_findClasses hc (List.ne_nil_of_mem hop)
  obtain ⟨g, name, type, -, -, horigin⟩ := mem_components_read (hread ▸ hop)
  exact horigin.kind_eq

theorem mem_calls_iff {regions : List Span} {owners : List OwnerSpan} (h : op.kind = .datasetCall) :
    op ∈ (findClasses source s).flatMap (·.components) ++
        findCalls source regions components owners s ++ findSql source owners ↔
      op ∈ findCalls source regions components owners s := by
  rw [List.mem_append, List.mem_append, List.mem_flatMap]
  constructor
  · rintro ((⟨c, hc, hop⟩ | hop) | hop)
    · rw [kind_of_mem_components hc hop] at h
      exact absurd h (by decide)
    · exact hop
    · exact absurd h (kind_ne_of_mem_findSql hop)
  · exact fun hop => .inl (.inr hop)

theorem exists_dataOps_readUnit (s : ExtractionSettings) (path text : String) :
    ∃ owners, ∀ op : DataOp, op.kind = .datasetCall →
      (op ∈ (readUnit s path text).dataOps ↔
        op ∈ findCalls (Masked.of .pascal text.toList)
          (callRegions (Masked.of .pascal text.toList).code)
          (componentNames (Masked.of .pascal text.toList).code s) owners s) :=
  ⟨_, fun _ hkind => mem_sortBy.trans (mem_calls_iff hkind)⟩

/-- Whether a call is recorded depends on the method and on the name in front of the dot only. -/
theorem exists_datasetCall_iff {regions : List Span} (owners : List OwnerSpan) {region : Span}
    {w : Word} {receiver : List Char} (hregion : region ∈ regions)
    (hw : w ∈ (Cursor.within source.code region.start region.stop).words)
    (hreceiver : receiver? w.first = some receiver)
    (hmethod : holdsName s.datasetMethods (String.ofList w.text) = true) :
    (∃ op ∈ findCalls source regions components owners s, op.kind = .datasetCall ∧
        op.raw = String.ofList receiver ++ "." ++ String.ofList w.text ∧
          op.line = source.lineAt w.start) ↔
      holdsName s.transactionMethods (String.ofList w.text) = false ∧
        (lowered receiver ∈ components ∨
          holdsName alwaysDataMethods (String.ofList w.text) = true) := by
  constructor
  · rintro ⟨op, hop, hkind, hraw, -⟩
    obtain ⟨_, -, v, hv, receiver', -, kind, hcall, rfl⟩ := mem_findCalls_iff.mp hop
    obtain ⟨rfl, htext⟩ := call_inj (Cursor.isWhole_of_mem_words hv).isIdent
      (Cursor.isWhole_of_mem_words hw).isIdent hraw
    rw [show kind = .datasetCall from hkind, htext, callKind?_eq_datasetCall_iff,
      toLower_ofList, ← lowered] at hcall
    exact ⟨hcall.1, hcall.2.2⟩
  · rintro ⟨htransaction, hknown⟩
    have hcall : callKind? s components (String.ofList receiver) (String.ofList w.text) =
        some .datasetCall :=
      callKind?_eq_datasetCall_iff.mpr ⟨htransaction, hmethod, by rwa [toLower_ofList, ← lowered]⟩
    exact ⟨_, mem_findCalls_iff.mpr ⟨region, hregion, w, hw, receiver, hreceiver, _, hcall, rfl⟩,
      rfl, rfl, rfl⟩

/-- The component names of a text are the names that it declares with a component type in the form
name, colon, type and mark. Every component of a class is declared by a group of fields in the body
of the class, and has its name among the component names when it is the last of its group and is
declared plainly there. A call of a dataset method, in the implementation or behind it, is recorded
exactly when the name in front of the dot is a component name or the method counts on any receiver,
unless the method controls transactions. -/
theorem datasetCalls_readUnit (s : ExtractionSettings) (path text : String) :
    let source := Masked.of .pascal text.toList
    (∀ n, n ∈ componentNames source.code s ↔ ∃ name type, Declares source.code name type ∧
      s.isDatasetComponent (String.ofList type) = true ∧ lowered name = n) ∧
    (∀ c ∈ findClasses source s, ∀ op ∈ c.components, ∃ body : Span,
      c.span.start ≤ body.start ∧ body.stop ≤ c.span.stop ∧
        c.components = (Members.read source s c.facts.name body).components ∧
          ∃ (g : FieldGroup) (name type : String),
            (g.start, g.text) ∈ statements body.start (body.slice source.code) ∧
              g.IsOrigin s name type op ∧
                (g.IsPlain source.code name type →
                  name.toLower ∈ componentNames source.code s)) ∧
    ∀ region ∈ callRegions source.code,
      ∀ w ∈ (Cursor.within source.code region.start region.stop).words,
        ∀ receiver, receiver? w.first = some receiver →
          holdsName s.datasetMethods (String.ofList w.text) = true →
            ((∃ op ∈ (readUnit s path text).dataOps, op.kind = .datasetCall ∧
                op.raw = String.ofList receiver ++ "." ++ String.ofList w.text ∧
                  op.line = source.lineAt w.start) ↔
              holdsName s.transactionMethods (String.ofList w.text) = false ∧
                (lowered receiver ∈ componentNames source.code s ∨
                  holdsName alwaysDataMethods (String.ofList w.text) = true)) := by
  intro source
  refine ⟨fun n => mem_componentNames_iff, ?_, ?_⟩
  · intro c hc op hop
    obtain ⟨front, body, back, hcode, hedge, hstart, hstop, hread⟩ :=
      exists_body_of_mem_findClasses hc (List.ne_nil_of_mem hop)
    obtain ⟨g, name, type, hmem, hlead, horigin⟩ := mem_components_read (hread ▸ hop)
    refine ⟨⟨width front, width front + width body⟩, hstart, hstop, hread, g, name, type, hmem,
      horigin, fun hplain => ?_⟩
    have hslice : (Span.mk (width front) (width front + width body)).slice source.code = body := by
      rw [Span.slice, Span.length, Nat.add_sub_cancel_left, hcode, dropBytes_width_append,
        takeBytes_width_append]
    rw [hslice] at hmem
    refine mem_componentNames_iff.mpr ⟨name.toList, type.toList,
      hplain.declares horigin hcode hedge hmem hlead, ?_, ?_⟩
    · rw [String.ofList_toList]
      exact horigin.isComponent
    · rw [lowered, ← toLower_ofList, String.ofList_toList]
  · intro region hregion w hw receiver hreceiver hmethod
    obtain ⟨owners, hops⟩ := exists_dataOps_readUnit s path text
    rw [← exists_datasetCall_iff owners hregion hw hreceiver hmethod]
    refine exists_congr fun op => ?_
    constructor
    · rintro ⟨hop, hkind, hrest⟩
      exact ⟨(hops op hkind).mp hop, hkind, hrest⟩
    · rintro ⟨hop, hkind, hrest⟩
      exact ⟨(hops op hkind).mpr hop, hkind, hrest⟩

end MigrationAudit.Pascal
