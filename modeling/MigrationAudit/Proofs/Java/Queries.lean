import MigrationAudit.Java.Unit
import MigrationAudit.Proofs.Java.Arguments
import MigrationAudit.Proofs.Lists
import MigrationAudit.Proofs.Sql.Statements
import MigrationAudit.Proofs.Text.Blocks

/-!
# Literals of statements

Every statement of a Java unit is read from one literal: a query from the literal that its annotation
has its value from, any other statement from the literal it starts in. A query also names a literal
by number, which is then passed over. That is the first literal in the arguments of the annotation;
so it is the literal of the query exactly when no other one stands in front of it there. A literal is
read twice exactly when it is that of a query, is not the one this query names, and starts a
statement.
-/

namespace MigrationAudit

open Text Source

/-! ## Literals in order -/

theorem Text.le_width_takeBytes {n : Nat} {cs : List Char} (h : dropBytes n cs ≠ []) :
    n ≤ width (takeBytes n cs) := by
  induction cs generalizing n with
  | nil => cases n <;> simp_all [dropBytes]
  | cons c cs ih =>
    cases n with
    | zero => exact Nat.zero_le _
    | succ n =>
      have := ih (n := n + 1 - c.utf8Size) h
      rw [takeBytes, width]
      omega

theorem Text.start_le_of_mem_words_within {code : List Char} {start stop : Nat} {w : Word}
    (h : w ∈ (Cursor.within code start stop).words) : start ≤ w.start := by
  obtain ⟨hfirst, -⟩ := Cursor.leadsWhole_of_mem_words h
  refine le_trans ?_ hfirst.offset_le
  have hafter : dropBytes start code ≠ [] := by
    intro hnil
    have hnone : (Cursor.within code start stop).nextWord? = none := by
      rw [Cursor.nextWord?_eq_none_iff]
      simp [Cursor.within, Cursor.upTo, Cursor.seek, Cursor.ofText, hnil]
    rw [Cursor.words_of_nextWord?_eq_none hnone] at h
    simp at h
  have hwidth := le_width_takeBytes hafter
  simpa [Cursor.within, Cursor.upTo, Cursor.seek, Cursor.ofText] using hwidth

/-- The literals of a masked text stand one behind the other. -/
def Source.Masked.Ordered (m : Masked) : Prop :=
  m.literals.Pairwise fun k l => k.span.start < l.span.start

theorem Source.Masked.ordered_of (s : Syntax) (t : List Char) : (Masked.of s t).Ordered := by
  have hapart : (Masked.of s t).literals.Pairwise fun k l => k.span.stop ≤ l.span.start :=
    literalsFrom_apart 0 _
  refine hapart.imp_of_mem fun {k l} hk _ hkl => ?_
  exact Nat.lt_of_lt_of_le (Masked.start_lt_stop_of_mem_literals hk) hkl

theorem Source.Masked.mem_literalsIn {m : Masked} {span : Span} {l : Literal} :
    l ∈ m.literalsIn span ↔ l ∈ m.literals ∧ span.contains l.span.start = true :=
  List.mem_filter

/-- The first literal in a span is the one that no other there stands in front of. -/
theorem Source.Masked.Ordered.head?_literalsIn_iff {m : Masked} (h : m.Ordered) {span : Span}
    {l : Literal} (hl : l ∈ m.literalsIn span) :
    (m.literalsIn span).head? = some l ↔
      ∀ k ∈ m.literalsIn span, l.span.start ≤ k.span.start := by
  have hsorted : (m.literalsIn span).Pairwise fun k l => k.span.start < l.span.start :=
    List.Pairwise.filter _ h
  cases hlits : m.literalsIn span with
  | nil => simp [hlits] at hl
  | cons first rest =>
    rw [hlits] at hl hsorted
    have hbehind : ∀ k ∈ rest, first.span.start < k.span.start :=
      fun k hk => List.rel_of_pairwise_cons hsorted hk
    rw [List.head?_cons, Option.some_inj, List.forall_mem_cons]
    constructor
    · rintro rfl
      exact ⟨le_rfl, fun k hk => (hbehind k hk).le⟩
    · rintro ⟨hle, -⟩
      rcases List.mem_cons.mp hl with rfl | hrest
      · rfl
      · exact absurd hle (Nat.not_le.mpr (hbehind l hrest))

theorem Source.Masked.Ordered.index_inj {m : Masked} (h : m.Ordered) {i j : Nat} {l : Literal}
    (hi : m.literals[i]? = some l) (hj : m.literals[j]? = some l) : i = j := by
  have hnodup : m.literals.Nodup := h.imp fun {k l} hkl heq => absurd hkl (by simp [heq])
  obtain ⟨hlt, hget⟩ := List.getElem?_eq_some_iff.mp hi
  exact (List.getElem?_inj hlt hnodup).mp (hi.trans hj.symm)

namespace Java

/-! ## Queries -/

def attributeLiteral? (source : Masked) (a : Annotation) (keys : List String) : Option Literal :=
  a.args.bind fun args =>
    match assignedKey? source args keys with
    | some w => (source.literalsIn ⟨w.start, args.stop⟩).head?
    | none =>
      (source.literalsIn args).head?.bind fun literal =>
        if (Span.slice ⟨args.start, literal.span.start⟩ source.code).contains '=' then none
        else some literal

def queryLiteral? (source : Masked) (annotations : List Annotation) : Option Literal :=
  (annotated? annotations ["Query", "NativeQuery"]).bind (attributeLiteral? source · ["value"])

variable {source : Masked} {a : Annotation} {annotations : List Annotation} {l : Literal}
  {q : Query}

theorem attribute?_eq (source : Masked) (a : Annotation) (keys : List String) :
    attribute? source a keys = (attributeLiteral? source a keys).map (·.value) := by
  unfold attribute? attributeLiteral?
  cases a.args with
  | none => rfl
  | some args =>
    rw [Option.bind_some, Option.bind_some]
    cases assignedKey? source args keys with
    | some w => rfl
    | none =>
      cases (source.literalsIn args).head? with
      | none => rfl
      | some l =>
        simp only [Option.bind_some]
        by_cases heq : (Span.slice ⟨args.start, l.span.start⟩ source.code).contains '='
        · rw [if_pos heq, if_pos heq, Option.map_none]
        · rw [if_neg heq, if_neg heq, Option.map_some]

theorem exists_of_attributeLiteral? {keys : List String}
    (h : attributeLiteral? source a keys = some l) :
    ∃ args, a.args = some args ∧ l ∈ source.literalsIn args := by
  obtain ⟨args, hargs, hl⟩ := Option.bind_eq_some_iff.mp h
  refine ⟨args, hargs, ?_⟩
  split at hl
  · next w hw =>
    obtain ⟨hmem, hcontains⟩ := Masked.mem_literalsIn.mp (List.mem_of_head? hl)
    have hstart := start_le_of_mem_words_within (List.mem_of_find?_eq_some hw)
    refine Masked.mem_literalsIn.mpr ⟨hmem, ?_⟩
    simp only [Span.contains, decide_eq_true_eq] at hcontains ⊢
    exact ⟨hstart.trans hcontains.1, hcontains.2⟩
  · obtain ⟨k, hk, hif⟩ := Option.bind_eq_some_iff.mp hl
    split at hif
    · cases hif
    · obtain rfl := Option.some.inj hif
      exact List.mem_of_head? hk

/-- A query has its text from a literal, and names the first literal in the arguments. -/
structure Query.IsReadFrom (source : Masked) (annotations : List Annotation) (q : Query)
    (args : Span) (l : Literal) : Prop where
  annotation : ∃ a, annotated? annotations ["Query", "NativeQuery"] = some a ∧
    a.args = some args ∧ attribute? source a ["value"] = some l.value
  literal : queryLiteral? source annotations = some l
  inside : l ∈ source.literalsIn args
  text_eq : q.text = String.ofList (squash l.value)
  kind_eq : q.kind = (Sql.kindOf? (squash l.value)).getD .otherSql
  named : source.literals[q.literalIndex]? = (source.literalsIn args).head?

theorem exists_of_query? (h : query? source annotations = some q) :
    ∃ args l, q.IsReadFrom source annotations args l := by
  obtain ⟨a, ha, h⟩ := Option.bind_eq_some_iff.mp h
  obtain ⟨value, hvalue, h⟩ := Option.bind_eq_some_iff.mp h
  obtain ⟨args, hargs, h⟩ := Option.bind_eq_some_iff.mp h
  obtain ⟨i, hi, h⟩ := Option.bind_eq_some_iff.mp h
  obtain rfl := Option.some.inj h
  have hattribute := hvalue
  rw [attribute?_eq] at hvalue
  obtain ⟨l, hl, rfl⟩ := Option.map_eq_some_iff.mp hvalue
  obtain ⟨args', hargs', hinside⟩ := exists_of_attributeLiteral? hl
  obtain rfl := Option.some.inj (hargs.symm.trans hargs')
  refine ⟨args, l, ⟨a, ha, hargs, hattribute⟩, ?_, hinside, rfl, rfl, ?_⟩
  · rw [queryLiteral?, ha]
    exact hl
  · rw [Masked.literalsIn, List.head?_filter]
    obtain ⟨hlt, htrue, hfirst⟩ := List.findIdx?_eq_some_iff_getElem.mp hi
    rw [List.getElem?_eq_getElem hlt, eq_comm, List.find?_eq_some_iff_getElem]
    exact ⟨htrue, i, hlt, rfl, fun j hj => by simpa using hfirst j hj⟩

theorem query?_isSome (source : Masked) (annotations : List Annotation) :
    (query? source annotations).isSome = (queryLiteral? source annotations).isSome := by
  rw [Bool.eq_iff_iff, Option.isSome_iff_exists, Option.isSome_iff_exists]
  constructor
  · rintro ⟨q, hq⟩
    obtain ⟨args, l, hl⟩ := exists_of_query? hq
    exact ⟨l, hl.literal⟩
  · rintro ⟨l, hl⟩
    obtain ⟨a, ha, hl⟩ := Option.bind_eq_some_iff.mp hl
    obtain ⟨args, hargs, hinside⟩ := exists_of_attributeLiteral? hl
    have hvalue : attribute? source a ["value"] = some l.value := by rw [attribute?_eq, hl]; rfl
    have hindex : (source.literals.findIdx? fun k => args.contains k.span.start).isSome := by
      rw [List.findIdx?_isSome, List.any_eq_true]
      exact ⟨l, Masked.mem_literalsIn.mp hinside⟩
    obtain ⟨i, hi⟩ := Option.isSome_iff_exists.mp hindex
    unfold query?
    simp only [ha, hvalue, hargs, hi, Option.bind_eq_bind, Option.bind_some]
    exact ⟨_, rfl⟩

/-- A query names its own literal exactly when no other literal of the arguments is in front. -/
theorem Query.IsReadFrom.named_iff {args : Span} (h : q.IsReadFrom source annotations args l)
    (hordered : source.Ordered) :
    source.literals[q.literalIndex]? = some l ↔
      ∀ k ∈ source.literalsIn args, l.span.start ≤ k.span.start := by
  rw [h.named]
  exact hordered.head?_literalsIn_iff h.inside

/-! ## Statements of a unit -/

/-- The numbers of the literals that the queries of the types name. -/
def queriedBy (source : Masked) (types : List ParsedType) : List Nat :=
  (types.flatMap (·.methods)).filterMap fun m =>
    (query? source m.annotations).map (·.literalIndex)

def queryLiterals (source : Masked) (types : List ParsedType) : List Literal :=
  (types.flatMap (·.methods)).filterMap fun m => queryLiteral? source m.annotations

/-- The literals in which statements start, without those of the given numbers. -/
def looseLiterals (source : Masked) (queried : List Nat) : List Literal :=
  ((Sql.statements source.literals).filter fun x => !queried.contains x.literalIndex).filterMap
    fun x => source.literals[x.literalIndex]?

def statementLiterals (source : Masked) (types : List ParsedType) : List Literal :=
  queryLiterals source types ++ looseLiterals source (queriedBy source types)

/-- An operation is the statement of a literal: as the value of an annotation, with single spaces, or
as a text that starts a statement itself. -/
inductive IsStatementOf (source : Masked) (op : DataOp) (l : Literal) : Prop
  | value (raw_eq : op.raw = String.ofList (squash l.value))
      (kind_eq : op.kind = (Sql.kindOf? (squash l.value)).getD .otherSql)
  | loose (raw_eq : op.raw = String.ofList (trim l.value))
      (kind_eq : Sql.kindOf? l.value = some op.kind)
      (line_eq : op.line = source.lineAt l.span.start)

theorem optionRel_of_isSome {β γ : Type} {R : β → γ → Prop} {o : Option β} {o' : Option γ}
    (hsome : o.isSome = o'.isSome) (hrel : ∀ b ∈ o, ∀ c ∈ o', R b c) : Option.Rel R o o' := by
  cases o with
  | none =>
    cases o' with
    | none => exact .none
    | some c => cases hsome
  | some b =>
    cases o' with
    | none => cases hsome
    | some c => exact .some (hrel b rfl c rfl)

variable {types : List ParsedType}

theorem isSql_of_op? {t : ParsedType} {m : ParsedMethod} {op : DataOp}
    (h : (MethodReading.of source t.name (basePath? source t) m).op? = some op) :
    op.kind.isSql = true := by
  obtain ⟨q, hq, rfl⟩ := Option.map_eq_some_iff.mp h
  obtain ⟨args, l, hl⟩ := exists_of_query? hq
  change q.kind.isSql = true
  rw [hl.kind_eq]
  cases hkind : Sql.kindOf? (squash l.value) with
  | none => rfl
  | some kind => exact Sql.isSql_of_kindOf? hkind

theorem filter_ops_typeReading (source : Masked) (t : ParsedType) :
    (TypeReading.of source t).ops.filter (·.kind.isSql) =
      t.methods.filterMap fun m => (MethodReading.of source t.name (basePath? source t) m).op? := by
  have hstored : ((storedEntity? (t.header.slice source.code)).map (·.op t)).toList.filter
      (·.kind.isSql) = [] := by
    cases storedEntity? (t.header.slice source.code) <;> rfl
  change (_ ++ _ : List DataOp).filter _ = _
  rw [List.filter_append, hstored, List.nil_append, List.filterMap_map]
  refine List.filter_eq_self.mpr fun op hop => ?_
  obtain ⟨m, -, hm⟩ := List.mem_filterMap.mp hop
  exact isSql_of_op? hm

theorem forall₂_queryLiterals (source : Masked) (types : List ParsedType) :
    List.Forall₂ (IsStatementOf source)
      ((types.map (TypeReading.of source)).flatMap fun r => r.ops.filter (·.kind.isSql))
      (queryLiterals source types) := by
  rw [List.flatMap_map, queryLiterals, List.filterMap_flatMap]
  refine List.rel_flatMap (R := Eq) (List.forall₂_refl types) ?_
  rintro t _ rfl
  beta_reduce
  rw [filter_ops_typeReading]
  refine List.rel_filterMap (R := Eq) ?_ (List.forall₂_refl t.methods)
  rintro m _ rfl
  apply optionRel_of_isSome
  · change ((query? source m.annotations).map _).isSome = _
    rw [Option.isSome_map]
    exact query?_isSome source m.annotations
  · intro op hop l hl
    obtain ⟨q, hq, rfl⟩ := Option.map_eq_some_iff.mp hop
    obtain ⟨args, l', hread⟩ := exists_of_query? hq
    obtain rfl := Option.some.inj (hread.literal.symm.trans hl)
    exact .value hread.text_eq hread.kind_eq

theorem forall₂_looseLiterals (source : Masked) (queried : List Nat) (owners : List OwnerSpan) :
    List.Forall₂ (IsStatementOf source) (looseStatements source queried owners)
      (looseLiterals source queried) := by
  refine List.rel_filterMap (R := fun x y => x = y ∧ x ∈ Sql.statements source.literals) ?_
    (List.forall₂_same.mpr fun x hx => ⟨rfl, List.mem_of_mem_filter hx⟩)
  rintro x _ ⟨rfl, hx⟩
  obtain ⟨l, hl, hkind, hfragment⟩ := Sql.literal_of_mem_statements hx
  beta_reduce
  rw [hl]
  exact .some (.loose hfragment hkind rfl)

theorem isSql_of_mem_looseStatements {queried : List Nat} {owners : List OwnerSpan} :
    ∀ op ∈ looseStatements source queried owners, op.kind.isSql = true := by
  intro op hop
  obtain ⟨x, hx, hop⟩ := List.mem_filterMap.mp hop
  obtain ⟨l, hl, hkind, -⟩ := Sql.literal_of_mem_statements (List.mem_of_mem_filter hx)
  obtain ⟨l', -, rfl⟩ := Option.map_eq_some_iff.mp hop
  exact Sql.isSql_of_kindOf? hkind

theorem mem_looseLiterals_iff {queried : List Nat} :
    l ∈ looseLiterals source queried ↔
      ∃ i, source.literals[i]? = some l ∧ Sql.kindOf? l.value ≠ none ∧ i ∉ queried := by
  rw [looseLiterals, List.mem_filterMap]
  constructor
  · rintro ⟨x, hx, hl⟩
    obtain ⟨hx, hqueried⟩ := List.mem_filter.mp hx
    obtain ⟨l', hl', hkind, -⟩ := Sql.literal_of_mem_statements hx
    obtain rfl := Option.some.inj (hl.symm.trans hl')
    exact ⟨x.literalIndex, hl, by simp [hkind], by simpa using hqueried⟩
  · rintro ⟨i, hl, hkind, hqueried⟩
    have hvalue : (source.literals.map (·.value))[i]? = some l.value := by
      rw [List.getElem?_map, hl]
      rfl
    obtain ⟨x, hx, hindex⟩ :=
      (Sql.exists_statementsFrom_iff 0 i _).mpr ⟨l.value, hvalue, hkind⟩
    rw [Nat.zero_add] at hindex
    refine ⟨x, List.mem_filter.mpr ⟨hx, ?_⟩, by rw [hindex, hl]⟩
    simpa [hindex] using hqueried

theorem nodup_looseLiterals (hordered : source.Ordered) (queried : List Nat) :
    (looseLiterals source queried).Nodup := by
  have hindices := (Sql.statementsFrom_pairwise 0 (source.literals.map (·.value))).filter
    fun x => !queried.contains x.literalIndex
  refine hindices.filterMap _ fun x y hxy k hk l hl heq => ?_
  subst heq
  exact absurd hxy (by rw [hordered.index_inj hk hl]; exact Nat.lt_irrefl _)

/-! ## Literals that are read twice -/

/-- The methods of the types are apart from each other, with the arguments of their annotations. -/
structure MethodsApart (types : List ParsedType) : Prop where
  apart : (types.flatMap (·.methods)).Pairwise fun m n => m.span.Apart n.span
  arguments : ∀ t ∈ types, ∀ m ∈ t.methods, m.HoldsArguments

namespace MethodsApart

variable {m n : ParsedMethod}

theorem contains_of_queryLiteral? (h : MethodsApart types) (hm : m ∈ types.flatMap (·.methods))
    (hl : queryLiteral? source m.annotations = some l) : m.span.contains l.span.start = true := by
  obtain ⟨a, ha, hl⟩ := Option.bind_eq_some_iff.mp hl
  obtain ⟨args, hargs, hinside⟩ := exists_of_attributeLiteral? hl
  obtain ⟨t, ht, hm⟩ := List.mem_flatMap.mp hm
  exact (h.arguments t ht m hm a (List.mem_of_find?_eq_some ha) args hargs).contains
    (Masked.mem_literalsIn.mp hinside).2

theorem nodup_queryLiterals (h : MethodsApart types) (source : Masked) :
    (queryLiterals source types).Nodup := by
  refine List.pairwise_filterMap.mpr (h.apart.imp_of_mem fun {m n} hm hn hmn k hk l hl heq => ?_)
  have hmk := h.contains_of_queryLiteral? hm hk
  have hnl := h.contains_of_queryLiteral? hn hl
  rw [← heq] at hnl
  exact Bool.false_ne_true ((hmn.not_contains hmk).symm.trans hnl)

/-- The literal of a query is passed over exactly when the query itself names it. -/
theorem mem_queriedBy_iff (h : MethodsApart types) (hordered : source.Ordered)
    (hm : m ∈ types.flatMap (·.methods)) (hq : query? source m.annotations = some q)
    (hl : queryLiteral? source m.annotations = some l) {i : Nat}
    (hi : source.literals[i]? = some l) :
    i ∈ queriedBy source types ↔ source.literals[q.literalIndex]? = some l := by
  constructor
  · intro hmem
    obtain ⟨n, hn, hnq⟩ := List.mem_filterMap.mp hmem
    obtain ⟨q', hq', rfl⟩ := Option.map_eq_some_iff.mp hnq
    obtain ⟨args, l', hread⟩ := exists_of_query? hq'
    obtain ⟨a, ha, hargs, -⟩ := hread.annotation
    obtain ⟨t, ht, hnt⟩ := List.mem_flatMap.mp hn
    -- the literal lies in the arguments of `n` as well, so the two methods are one
    have hfirst : l ∈ source.literalsIn args :=
      List.mem_of_head? (hread.named.symm.trans hi)
    have hnl : n.span.contains l.span.start = true :=
      (h.arguments t ht n hnt a (List.mem_of_find?_eq_some ha) args hargs).contains
        (Masked.mem_literalsIn.mp hfirst).2
    have hml := h.contains_of_queryLiteral? hm hl
    have hsymm : Std.Symm fun m n : ParsedMethod => m = n ∨ m.span.Apart n.span :=
      ⟨fun _ _ hmn => hmn.imp Eq.symm Or.symm⟩
    have hcases : ∀ x ∈ types.flatMap (·.methods), ∀ y ∈ types.flatMap (·.methods),
        x = y ∨ x.span.Apart y.span := by
      apply List.Pairwise.forall_of_forall
      · exact fun x _ => .inl rfl
      · exact h.apart.imp .inr
    rcases hcases m hm n hn with rfl | hapart
    · obtain rfl := Option.some.inj (hq.symm.trans hq')
      exact hi
    · exact absurd hnl (by rw [hapart.not_contains hml]; exact Bool.false_ne_true)
  · intro hnamed
    rw [hordered.index_inj hi hnamed]
    exact List.mem_filterMap.mpr ⟨m, hm, by rw [hq]; rfl⟩

/-- The literals of the statements are different exactly when every query names its own literal, or
that literal starts no statement. -/
theorem nodup_statementLiterals_iff (h : MethodsApart types) (hordered : source.Ordered) :
    (statementLiterals source types).Nodup ↔
      ∀ t ∈ types, ∀ m ∈ t.methods, ∀ q ∈ query? source m.annotations,
        ∀ l ∈ queryLiteral? source m.annotations,
          source.literals[q.literalIndex]? = some l ∨ Sql.kindOf? l.value = none := by
  rw [statementLiterals, List.nodup_append,
    and_iff_right (h.nodup_queryLiterals source), and_iff_right (nodup_looseLiterals hordered _)]
  constructor
  · intro hdisjoint t ht m hm q hq l hl
    have hmem := List.mem_flatMap.mpr ⟨t, ht, hm⟩
    obtain ⟨args, l', hread⟩ := exists_of_query? hq
    obtain rfl := Option.some.inj (hread.literal.symm.trans hl)
    obtain ⟨i, hi⟩ := List.mem_iff_getElem?.mp (Masked.mem_literalsIn.mp hread.inside).1
    by_contra hnot
    rw [not_or] at hnot
    have hloose : l' ∈ looseLiterals source (queriedBy source types) :=
      mem_looseLiterals_iff.mpr
        ⟨i, hi, hnot.2, fun hin => hnot.1 ((h.mem_queriedBy_iff hordered hmem hq hl hi).mp hin)⟩
    exact hdisjoint l' (List.mem_filterMap.mpr ⟨m, hmem, hl⟩) l' hloose rfl
  · rintro hall l hquery _ hloose rfl
    obtain ⟨m, hmem, hl⟩ := List.mem_filterMap.mp hquery
    obtain ⟨i, hi, hkind, hqueried⟩ := mem_looseLiterals_iff.mp hloose
    obtain ⟨t, ht, hm⟩ := List.mem_flatMap.mp hmem
    have hsome : (query? source m.annotations).isSome := by rw [query?_isSome, hl]; rfl
    obtain ⟨q, hq⟩ := Option.isSome_iff_exists.mp hsome
    rcases hall t ht m hm q hq l hl with hnamed | hnone
    · exact hqueried ((h.mem_queriedBy_iff hordered hmem hq hl hi).mpr hnamed)
    · exact hkind hnone

end MethodsApart

/-! ## Files -/

/-- The types of a file, as a unit reads them. -/
def unitTypes (s : ExtractionSettings) (path text : String) : List ParsedType :=
  (readTypes (.of .java text.toList) path s.maxNestingDepth).1

/-- What the types of a file and their methods own of it. -/
def unitOwners (s : ExtractionSettings) (path text : String) : List OwnerSpan :=
  ((unitTypes s path text).map (TypeReading.of (.of .java text.toList))).flatMap (·.owners)

theorem queriedBy_eq (source : Masked) (types : List ParsedType) :
    (types.map (TypeReading.of source)).flatMap (·.queried) = queriedBy source types := by
  rw [List.flatMap_map, queriedBy, List.filterMap_flatMap]
  simp only [TypeReading.of, List.filterMap_map]
  rfl

theorem dataOps_perm (s : ExtractionSettings) (path text : String) :
    (readUnit s path text).dataOps.Perm
      (((unitTypes s path text).map (TypeReading.of (.of .java text.toList))).flatMap (·.ops) ++
        looseStatements (.of .java text.toList)
          (queriedBy (.of .java text.toList) (unitTypes s path text))
          (unitOwners s path text)) := by
  rw [← queriedBy_eq]
  exact sortBy_perm _ _

theorem methodsApart_unitTypes (s : ExtractionSettings) (path text : String) :
    MethodsApart (unitTypes s path text) :=
  ⟨(fits_readScope ..).methods_of_types_apart, (holdsArguments_readScope ..).2⟩

/-- The statements of a unit are those of its literals, one for each time that a literal is read. A
query has its text from a literal in the arguments of its annotation, and the number that it names is
that of this literal exactly when no other one stands in front of it there. No literal is read twice
exactly when every query names its own literal, or that literal starts no statement. -/
theorem literals_of_statements (s : ExtractionSettings) (path text : String) :
    (∃ ops, ops.Perm ((readUnit s path text).dataOps.filter (·.kind.isSql)) ∧
        List.Forall₂ (IsStatementOf (.of .java text.toList)) ops
          (statementLiterals (.of .java text.toList) (unitTypes s path text))) ∧
      (∀ t ∈ unitTypes s path text, ∀ m ∈ t.methods,
        ∀ q ∈ query? (.of .java text.toList) m.annotations, ∃ args l,
          q.IsReadFrom (.of .java text.toList) m.annotations args l ∧
            ((Masked.of .java text.toList).literals[q.literalIndex]? = some l ↔
              ∀ k ∈ (Masked.of .java text.toList).literalsIn args,
                l.span.start ≤ k.span.start)) ∧
      ((statementLiterals (.of .java text.toList) (unitTypes s path text)).Nodup ↔
        ∀ t ∈ unitTypes s path text, ∀ m ∈ t.methods,
          ∀ q ∈ query? (.of .java text.toList) m.annotations,
            ∀ l ∈ queryLiteral? (.of .java text.toList) m.annotations,
              (Masked.of .java text.toList).literals[q.literalIndex]? = some l ∨
                Sql.kindOf? l.value = none) := by
  have hordered := Masked.ordered_of .java text.toList
  refine ⟨?_, fun t _ m _ q hq => ?_,
    (methodsApart_unitTypes s path text).nodup_statementLiterals_iff hordered⟩
  · refine ⟨_, .symm ?_, List.rel_append (forall₂_queryLiterals _ _)
      (forall₂_looseLiterals _ (queriedBy _ _) (unitOwners s path text))⟩
    have hloose : (looseStatements (.of .java text.toList)
        (queriedBy (.of .java text.toList) (unitTypes s path text))
        (unitOwners s path text)).filter (·.kind.isSql) = looseStatements _ _ _ :=
      List.filter_eq_self.mpr isSql_of_mem_looseStatements
    refine ((dataOps_perm s path text).filter _).trans (.of_eq ?_)
    rw [List.filter_append, hloose, List.filter_flatMap]
  · obtain ⟨args, l, hread⟩ := exists_of_query? hq
    exact ⟨args, l, hread, hread.named_iff hordered⟩

end Java

end MigrationAudit
