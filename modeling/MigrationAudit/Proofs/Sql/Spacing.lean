import MigrationAudit.Proofs.Java.Queries
import MigrationAudit.Proofs.Text.Fields

/-!
# Statements with any white space

The kind of a statement and the table it names depend on the fields of its text alone, so they are
the same for every white space between the fields and around them. A query of an annotation is kept
with single spaces, and is sorted like the literal as it was written.
-/

namespace MigrationAudit

open Text Source

/-! ## Kinds -/

namespace Sql

/-- The kind of statement that fields start. A verb alone has to be as long as a statement. -/
def kindOfFields? : List (List Char) → Option DataOpKind
  | [] => none
  | run :: runs =>
    let verb := before '(' run
    let upper := verb.map Char.toUpper
    if runs.isEmpty && decide (width run < minWidth) then none
    else
      (verbKind? (String.ofList upper)).filter fun _ =>
        verb == upper || runs.any fun w => clauseWords.contains (lowered w)

theorem four_le_of_verbKind? {verb : String} {kind : DataOpKind} (h : verbKind? verb = some kind) :
    4 ≤ verb.length := by
  unfold verbKind? at h
  split at h
  any_goals decide
  split at h
  · next hmem =>
    simp only [List.contains_eq_mem, List.mem_cons, List.not_mem_nil, or_false, decide_eq_true_eq]
      at hmem
    rcases hmem with rfl | rfl | rfl | rfl | rfl | rfl | rfl | rfl <;> decide
  · cases h

theorem length_le_width (cs : List Char) : cs.length ≤ width cs := by
  induction cs with
  | nil => exact Nat.zero_le _
  | cons c cs ih =>
    have := c.utf8Size_pos
    rw [List.length_cons, width]
    omega

theorem takeWhile_verb {run rest : List Char} (hrun : ∀ c ∈ run, isBlank c = false)
    (hrest : ∀ c ∈ rest.head?, isBlank c = true) :
    (run ++ rest).takeWhile (fun c => !(isBlank c || c == '(')) = before '(' run := by
  have hstop : rest.head?.any (fun c => !(isBlank c || c == '(')) = false := by
    cases rest with
    | nil => rfl
    | cons c rest => simp [hrest c rfl]
  rw [takeWhile_append_left hstop, before]
  clear hstop
  induction run with
  | nil => rfl
  | cons c run ih =>
    obtain ⟨hc, hrun⟩ := List.forall_mem_cons.mp hrun
    rw [List.takeWhile_cons, List.takeWhile_cons, ih hrun, hc]
    rfl

theorem verbKind?_eq_none {run : List Char} (h : width run < 4) :
    verbKind? (String.ofList ((before '(' run).map Char.toUpper)) = none := by
  cases hkind : verbKind? (String.ofList ((before '(' run).map Char.toUpper)) with
  | none => rfl
  | some kind =>
    have hfour := four_le_of_verbKind? hkind
    have hshort := (List.takeWhile_sublist (· != '(') (l := run)).length_le
    have hwidth := length_le_width run
    rw [String.length_ofList, List.length_map, before] at hfour
    omega

/-- The kind of a text is that of its fields: with a second field, no verb is too short. -/
theorem kindOf?_eq (cs : List Char) : kindOf? cs = kindOfFields? (fields cs) := by
  rw [kindOf?, hasClause, fields_trim]
  cases hfields : fields cs with
  | nil =>
    have hblank : ∀ c ∈ cs, isBlank c = true := by simpa using forall_of_runsOf_eq_nil hfields
    rw [trim_eq_nil hblank]
    rfl
  | cons run runs =>
    obtain ⟨rest, htrim, hrest, hcase⟩ := exists_trim_of_fields hfields
    have hrun := (mem_fields cs run (hfields ▸ List.mem_cons_self)).2
    simp only [htrim, takeWhile_verb hrun hrest, kindOfFields?, List.tail_cons]
    rcases hcase with ⟨rfl, rfl⟩ | ⟨hruns, hwidth⟩
    · simp only [List.append_nil, List.isEmpty_nil, Bool.true_and, decide_eq_true_eq]
      cases verbKind? (String.ofList ((before '(' run).map Char.toUpper)) <;> rfl
    · have hmore : runs.isEmpty = false := by simpa using hruns
      rw [hmore, Bool.false_and, if_neg Bool.false_ne_true]
      by_cases hshort : width (run ++ rest) < minWidth
      · have hverb : width run < 4 := by
          rw [width_append, minWidth] at hshort
          omega
        rw [if_pos hshort, verbKind?_eq_none hverb, Option.filter_none]
      · rw [if_neg hshort]
        cases verbKind? (String.ofList ((before '(' run).map Char.toUpper)) <;> rfl

theorem kindOf?_congr {as bs : List Char} (h : fields as = fields bs) :
    kindOf? as = kindOf? bs := by
  rw [kindOf?_eq, kindOf?_eq, h]

theorem tableOf?_congr {as bs : List Char} (h : fields as = fields bs) :
    tableOf? as = tableOf? bs := by
  rw [tableOf?, tableOf?, h]

end Sql

/-! ## Queries -/

theorem Java.table_of_query? {source : Masked} {annotations : List Java.Annotation} {q : Java.Query}
    (h : Java.query? source annotations = some q) : q.table = Sql.tableOf? q.text.toList := by
  obtain ⟨a, -, h⟩ := Option.bind_eq_some_iff.mp h
  obtain ⟨value, -, h⟩ := Option.bind_eq_some_iff.mp h
  obtain ⟨args, -, h⟩ := Option.bind_eq_some_iff.mp h
  obtain ⟨i, -, h⟩ := Option.bind_eq_some_iff.mp h
  obtain rfl := Option.some.inj h
  rw [String.toList_ofList]

/-- The kind of a statement is that of the fields of its text, so white space makes no difference to
it and to the table that the statement names. A query, whose text has single spaces, is sorted by
them like the literal that it is read from as it was written. -/
theorem Sql.sorted_anySpacing :
    (∀ cs, kindOf? cs = kindOfFields? (fields cs) ∧ kindOf? (squash cs) = kindOf? cs ∧
        tableOf? (squash cs) = tableOf? cs) ∧
      ∀ source annotations, ∀ q ∈ Java.query? source annotations, ∃ l ∈ source.literals,
        Java.queryLiteral? source annotations = some l ∧ q.text = String.ofList (squash l.value) ∧
          q.kind = (kindOf? l.value).getD .otherSql ∧ q.table = tableOf? l.value := by
  have hkind (cs : List Char) : kindOf? (squash cs) = kindOf? cs := kindOf?_congr (fields_squash cs)
  have htable (cs : List Char) : tableOf? (squash cs) = tableOf? cs :=
    tableOf?_congr (fields_squash cs)
  refine ⟨fun cs => ⟨kindOf?_eq cs, hkind cs, htable cs⟩, fun source annotations q hq => ?_⟩
  obtain ⟨args, l, hl⟩ := Java.exists_of_query? hq
  refine ⟨l, (Masked.mem_literalsIn.mp hl.inside).1, hl.literal, hl.text_eq, ?_, ?_⟩
  · rw [hl.kind_eq, hkind]
  · rw [Java.table_of_query? hq, hl.text_eq, String.toList_ofList, htable]

/-- A query that is written with wide spaces. -/
theorem Sql.sorted_anySpacing_users :
    ∃ l ∈ (Masked.of .java "@Query(\"select id   from users\")".toList).literals,
      Java.queryLiteral? (Masked.of .java "@Query(\"select id   from users\")".toList)
          [⟨"Query", some ⟨7, 30⟩⟩] = some l ∧
        "select id from users" = String.ofList (squash l.value) ∧
        .select = (kindOf? l.value).getD .otherSql ∧ some "users" = tableOf? l.value :=
  sorted_anySpacing.2 _ _ ⟨0, "select id from users", .select, some "users"⟩ (by decide +kernel)

end MigrationAudit
