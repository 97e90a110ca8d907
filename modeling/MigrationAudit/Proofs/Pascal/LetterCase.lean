import MigrationAudit.Proofs.Pascal.LowerUnits

/-!
# Sources that differ in the case of letters

Two Pascal texts that differ only in the case of letters outside comments and literals are read as
the same unit, up to the case of the names in it, except for calls of dataset methods. These are told
by the names of components, and a name counts as one only when its type starts with a capital T.
-/

namespace MigrationAudit

/-! ## Dataset calls -/

def DataOp.isDatasetCall (op : DataOp) : Bool := op.kind == .datasetCall

def SourceUnit.withoutDatasetCalls (u : SourceUnit) : SourceUnit :=
  { u with dataOps := u.dataOps.filter (!·.isDatasetCall) }

@[simp] theorem DataOp.isDatasetCall_lowerCase (op : DataOp) :
    op.lowerCase.isDatasetCall = op.isDatasetCall := rfl

theorem SourceUnit.withoutDatasetCalls_lowerCase (u : SourceUnit) :
    u.lowerCase.withoutDatasetCalls = u.withoutDatasetCalls.lowerCase := by
  simp [withoutDatasetCalls, lowerCase, List.filter_map, Function.comp_def]

namespace Pascal

open Text Source

section Components

variable (s : ExtractionSettings) (path : String) (source : Masked) {regions : List Span}
  {owners : List OwnerSpan} (components components' : List String)

/-- Calls that are no calls of dataset methods do not depend on the names of components. -/
theorem filter_findCalls :
    (findCalls source regions components owners s).filter (!·.isDatasetCall) =
      (findCalls source regions components' owners s).filter (!·.isDatasetCall) := by
  have hkind : ∀ receiver method,
      (callKind? s components receiver method).filter (fun kind => !kind == .datasetCall) =
        (callKind? s components' receiver method).filter (fun kind => !kind == .datasetCall) := by
    intro receiver method
    unfold callKind?
    split
    · rfl
    · split <;> split <;> rfl
  rw [findCalls, findCalls, List.filter_flatMap, List.filter_flatMap]
  congr 1
  funext region
  rw [List.filter_filterMap, List.filter_filterMap]
  congr 1
  funext w
  cases receiver? w.first with
  | none => rfl
  | some receiver =>
    have hmap : ∀ (o : Option DataOpKind) (f : DataOpKind → DataOp),
        (o.bind fun kind => some (f kind)) = o.map f := fun _ _ => Option.map_eq_bind.symm
    simp only [Option.bind_eq_bind, Option.bind_some, hmap, Option.filter_map]
    exact congrArg _ (hkind (String.ofList receiver) (String.ofList w.text))

theorem filter_dataOpsOf :
    (dataOpsOf s path source components).filter (!·.isDatasetCall) =
      (dataOpsOf s path source components').filter (!·.isDatasetCall) := by
  refine filter_sortBy_eq_of_filter_eq ?_
  simp only [accessesOf, List.filter_append, filter_findCalls s source components components']

theorem withStatements_filter (ops : List DataOp) (c : ClassDecl) :
    withStatements (ops.filter (!·.isDatasetCall)) c = withStatements ops c := by
  have hsql : ∀ (op : DataOp) (b : Bool),
      (!op.isDatasetCall && (op.kind.isSql && b)) = (op.kind.isSql && b) := by
    intro op b
    rw [DataOp.isDatasetCall]
    cases op.kind <;> rfl
  simp only [withStatements, List.any_filter, hsql]

/-- But for its calls of dataset methods a unit does not depend on the names of components. -/
theorem withoutDatasetCalls_unitOf :
    (unitOf s path source components).withoutDatasetCalls =
      (unitOf s path source components').withoutDatasetCalls := by
  have hops := filter_dataOpsOf s path source components components'
  have hstatements : withStatements (dataOpsOf s path source components) =
      withStatements (dataOpsOf s path source components') := by
    funext c
    rw [← withStatements_filter, hops, withStatements_filter]
  simp only [unitOf, SourceUnit.withoutDatasetCalls, hops, hstatements]

/-! ## Deciding names -/

/-- Whether a method counts as data access on components only. -/
def needsComponent (method : String) : Bool :=
  holdsName s.datasetMethods method && !holdsName s.transactionMethods method &&
    !holdsName alwaysDataMethods method

/-- A name, in lower case, on which a method that counts on components only is called. -/
def IsDeciding (code : List Char) (name : String) : Prop :=
  ∃ region ∈ callRegions code, ∃ w ∈ (Cursor.within code region.start region.stop).words,
    ∃ receiver, receiver? w.first = some receiver ∧ lowered receiver = name ∧
      needsComponent s (String.ofList w.text) = true

variable {s components components'}

theorem callKind?_congr {receiver method : String}
    (h : needsComponent s method = true →
      (receiver.toLower ∈ components ↔ receiver.toLower ∈ components')) :
    callKind? s components receiver method = callKind? s components' receiver method := by
  by_cases hneeds : needsComponent s method = true
  · have hcontains :
        components.contains receiver.toLower = components'.contains receiver.toLower := by
      rw [Bool.eq_iff_iff, List.contains_iff_mem, List.contains_iff_mem]
      exact h hneeds
    rw [callKind?, hcontains, callKind?]
  · unfold callKind?
    cases htransaction : holdsName s.transactionMethods method with
    | true => rfl
    | false =>
      cases halways : holdsName alwaysDataMethods method with
      | true => simp
      | false =>
        have hmethod : holdsName s.datasetMethods method = false := by
          simpa [needsComponent, htransaction, halways] using hneeds
        simp [hmethod]

/-- Component names that agree on what methods are called on make the same calls. -/
theorem findCalls_congr
    (h : ∀ name, IsDeciding s source.code name → (name ∈ components ↔ name ∈ components')) :
    findCalls source (callRegions source.code) components owners s =
      findCalls source (callRegions source.code) components' owners s := by
  rw [findCalls, findCalls]
  refine List.flatMap_congr fun region hregion => List.filterMap_congr fun w hw => ?_
  cases hreceiver : receiver? w.first with
  | none => rfl
  | some receiver =>
    have hkind : callKind? s components (String.ofList receiver) (String.ofList w.text) =
        callKind? s components' (String.ofList receiver) (String.ofList w.text) := by
      refine callKind?_congr fun hneeds => ?_
      rw [toLower_ofList, ← lowered]
      exact h _ ⟨region, hregion, w, hw, receiver, hreceiver, rfl, hneeds⟩
    simp only [Option.bind_eq_bind, Option.bind_some, hkind]

theorem unitOf_congr
    (h : ∀ name, IsDeciding s source.code name → (name ∈ components ↔ name ∈ components')) :
    unitOf s path source components = unitOf s path source components' := by
  have hops : dataOpsOf s path source components = dataOpsOf s path source components' := by
    rw [dataOpsOf, accessesOf, findCalls_congr source h, dataOpsOf, accessesOf]
  simp only [unitOf, hops]

theorem mem_unitOf_iff {op : DataOp} (hop : op.kind = .datasetCall) :
    op ∈ (unitOf s path source components).dataOps ↔
      op ∈ findCalls source (callRegions source.code) components (assemblyOf s path source).owners
        s :=
  mem_sortBy.trans (mem_calls_iff hop)

theorem isIdent_lowerLatin {cs : List Char} (h : ∀ a ∈ cs, isIdent a = true) :
    ∀ a ∈ lowerLatin cs, isIdent a = true := by
  intro a ha
  obtain ⟨b, hb, rfl⟩ := List.mem_map.mp ha
  rw [ignoresCase_isIdent, h b hb]

theorem toLower_call_inj {receiver receiver' method method' : List Char}
    (hmethod : ∀ a ∈ method, isIdent a = true) (hmethod' : ∀ a ∈ method', isIdent a = true)
    (h : (String.ofList receiver ++ "." ++ String.ofList method).toLower =
      (String.ofList receiver' ++ "." ++ String.ofList method').toLower) :
    lowerLatin receiver = lowerLatin receiver' ∧ lowerLatin method = lowerLatin method' := by
  refine call_inj (isIdent_lowerLatin hmethod) (isIdent_lowerLatin hmethod') ?_
  simpa [toLower_ofList, toLower_eq_self (s := ".") rfl] using h

/-- A call on a component is a call on a component in every unit that is the same in lower case. -/
theorem mem_of_lowerCase_eq
    (h : (unitOf s path source components).lowerCase = (unitOf s path source components').lowerCase)
    {name : String} (hname : IsDeciding s source.code name) (hmem : name ∈ components) :
    name ∈ components' := by
  obtain ⟨region, hregion, w, hw, receiver, hreceiver, rfl, hneeds⟩ := hname
  simp only [needsComponent, Bool.and_eq_true, Bool.not_eq_true'] at hneeds
  obtain ⟨⟨hmethod, htransaction⟩, halways⟩ := hneeds
  have hcall : callKind? s components (String.ofList receiver) (String.ofList w.text) =
      some .datasetCall := by
    refine callKind?_eq_datasetCall_iff.mpr ⟨htransaction, hmethod, .inl ?_⟩
    rwa [toLower_ofList, ← lowered]
  have hop := (mem_unitOf_iff path source rfl).mpr
    (mem_findCalls_iff.mpr ⟨region, hregion, w, hw, receiver, hreceiver, _, hcall, rfl⟩)
  -- the other unit has an operation that is the same in lower case
  have hlower := List.mem_map_of_mem (f := DataOp.lowerCase) hop
  rw [show (unitOf s path source components).dataOps.map DataOp.lowerCase =
    (unitOf s path source components').dataOps.map DataOp.lowerCase from
      congrArg SourceUnit.dataOps h] at hlower
  obtain ⟨op, hop', heq⟩ := List.mem_map.mp hlower
  have hkind : op.kind = .datasetCall := congrArg DataOp.kind heq
  have hraw : op.lowerCase.raw = (String.ofList receiver ++ "." ++ String.ofList w.text).toLower :=
    congrArg DataOp.raw heq
  obtain ⟨_, -, v, hv, receiver', hreceiver', kind, hcall', rfl⟩ :=
    mem_findCalls_iff.mp ((mem_unitOf_iff path source hkind).mp hop')
  obtain rfl : kind = .datasetCall := hkind
  have hsame := toLower_call_inj (Cursor.isWhole_of_mem_words hv).isIdent
    (Cursor.isWhole_of_mem_words hw).isIdent hraw
  have hnever : holdsName alwaysDataMethods (String.ofList v.text) = false := by
    rw [← holdsName_toLower, toLower_ofList, hsame.2, ← toLower_ofList, holdsName_toLower, halways]
  obtain ⟨-, -, hmem' | hmem'⟩ := callKind?_eq_datasetCall_iff.mp hcall'
  · rwa [toLower_ofList, hsame.1] at hmem'
  · exact absurd hmem' (by simp [hnever])

end Components

/-! ## Sources that differ in case -/

/-- Two texts that differ only in the case of letters outside comments and literals are read as
units that agree, in lower case, in all but calls of dataset methods. They agree in these as well
exactly when each name on which a method is called that counts on components only is a component
name of both texts or of none. -/
theorem lowerCase_readUnit (s : ExtractionSettings) (path : String) {text text' : String}
    (h : SameButForCase text.toList text'.toList) :
    let code := (Masked.of .pascal text.toList).code
    let code' := (Masked.of .pascal text'.toList).code
    (readUnit s path text).lowerCase.withoutDatasetCalls =
      (readUnit s path text').lowerCase.withoutDatasetCalls ∧
    ((readUnit s path text).lowerCase = (readUnit s path text').lowerCase ↔
      ∀ name, IsDeciding s code name →
        (name ∈ componentNames code s ↔ name ∈ componentNames code' s)) := by
  intro code code'
  -- read the first text with the component names of the second
  have hread : (unitOf s path (.of .pascal text.toList) (componentNames code' s)).lowerCase =
      (readUnit s path text').lowerCase := by
    rw [readUnit_eq_unitOf, lowerCase_unitOf, Masked.lowerCase_of h, ← lowerCase_unitOf]
  rw [← hread, readUnit_eq_unitOf]
  refine ⟨?_, fun hunits name hname => ?_, fun hnames => ?_⟩
  · rw [SourceUnit.withoutDatasetCalls_lowerCase, SourceUnit.withoutDatasetCalls_lowerCase,
      withoutDatasetCalls_unitOf]
  · exact ⟨mem_of_lowerCase_eq path _ hunits hname, mem_of_lowerCase_eq path _ hunits.symm hname⟩
  · rw [unitOf_congr path _ hnames]

/-- The same calls, behind two spellings of the type of a query. -/
theorem lowerCase_readUnit_query :
    let text := "unit U; implementation var q: TQuery; begin q.Open; end."
    let text' := "unit U; implementation var q: tquery; begin q.Open; end."
    let code := (Masked.of .pascal text.toList).code
    let code' := (Masked.of .pascal text'.toList).code
    SameButForCase text.toList text'.toList ∧
    (readUnit {} "U.pas" text).lowerCase.withoutDatasetCalls =
      (readUnit {} "U.pas" text').lowerCase.withoutDatasetCalls ∧
    ((readUnit {} "U.pas" text).lowerCase = (readUnit {} "U.pas" text').lowerCase ↔
      ∀ name, IsDeciding {} code name →
        (name ∈ componentNames code {} ↔ name ∈ componentNames code' {})) := by
  intro text text' code code'
  have hcode : ∀ t : List Char, (∀ o ∈ Syntax.pascal.openers, o.any (!t.contains ·) = true) →
      (segments .pascal t).filter (!·.isCode) = [] := by
    intro t ht
    rw [segments_eq_map_code fun o ho => by simpa using ht o ho]
    simp [List.filter_map, Function.comp_def, Segment.isCode]
  have hsame : SameButForCase text.toList text'.toList :=
    ⟨by decide, by rw [hcode _ (by decide), hcode _ (by decide)]⟩
  exact ⟨hsame, lowerCase_readUnit {} "U.pas" hsame⟩

end Pascal

end MigrationAudit
