import MigrationAudit.Proofs.Sql.Statements
import MigrationAudit.Proofs.Text.Pieces
import Mathlib.Data.List.Nodup

/-!
# Where statements go on

A statement goes on in the literals behind its first one, until one of them starts a statement itself
or the limit is reached. So literals may be cut in front of one that starts a statement, and each
part has its own statements. What a statement says comes from the literal it starts in and those it
goes on in, whatever stands in front of them and behind them.
-/

namespace MigrationAudit.Sql

open Source Text

variable {more rest : List Literal} {l : Literal} {x y : Statement}

/-- A statement goes on in the literals `more`, and not in `rest` behind them: none of `more` starts
a statement, and they are as many as may be, or nothing is left, or the next literal starts one. -/
structure GoesOnIn (more rest : List Literal) : Prop where
  length_le : more.length ≤ continuationLimit
  startsNone : ∀ l ∈ more, kindOf? l.value = none
  stops : more.length = continuationLimit ∨ ∀ l ∈ rest.head?, kindOf? l.value ≠ none

def joinedText (literals : List Literal) : List Char :=
  [' '].intercalate (literals.map fun l => trim l.value)

namespace Statement

/-- The same statement when `n` more literals stand in front of it. -/
def shift (n : Nat) (x : Statement) : Statement := { x with literalIndex := n + x.literalIndex }

/-- The statement starts in the literal `l`, which has number `n`, and goes on in `more`. -/
structure SpreadsOver (x : Statement) (n : Nat) (l : Literal) (more : List Literal) : Prop where
  literalIndex_eq : x.literalIndex = n
  kind_eq : kindOf? l.value = some x.kind
  fragment_eq : x.fragment = String.ofList (trim l.value)
  table_eq : x.table = tableOf? (joinedText (l :: more))

theorem SpreadsOver.moved {m n : Nat} (h : x.SpreadsOver m l more) :
    y.SpreadsOver n l more ↔ y = { x with literalIndex := n } := by
  constructor
  · intro hy
    obtain ⟨i, kind, fragment, table⟩ := y
    obtain ⟨rfl, hkind, rfl, rfl⟩ := hy
    obtain rfl := Option.some.inj (hkind.symm.trans h.kind_eq)
    rw [h.fragment_eq, h.table_eq]
  · rintro rfl
    exact ⟨rfl, h.kind_eq, h.fragment_eq, h.table_eq⟩

end Statement

/-! ## Windows -/

/-- The texts that a statement goes on in, of those behind its first one. -/
def window (later : List (List Char)) : List (List Char) :=
  (later.take continuationLimit).takeWhile fun v => (kindOf? v).isNone

/-- The window ends in front of a text that starts a statement. -/
theorem window_append {vs ws : List (List Char)} (h : ∀ w ∈ ws.head?, kindOf? w ≠ none) :
    window (vs ++ ws) = window vs := by
  have hstart : (ws.take (continuationLimit - vs.length)).head?.any
      (fun v => (kindOf? v).isNone) = false := by
    rw [List.head?_take]
    split
    · rfl
    · cases hhead : ws.head? with
      | none => rfl
      | some w => simpa [Option.isNone_eq_false_iff, Option.isSome_iff_ne_none] using h w hhead
  rw [window, List.take_append, takeWhile_append_left hstart, window]

theorem GoesOnIn.window_eq (h : GoesOnIn more rest) :
    window ((more ++ rest).map (·.value)) = more.map (·.value) := by
  have hall : ∀ v ∈ more.map (·.value), (kindOf? v).isNone = true := by
    simpa using h.startsNone
  have hself : window (more.map (·.value)) = more.map (·.value) := by
    rw [window, List.take_of_length_le (by simpa using h.length_le),
      List.takeWhile_eq_self_iff.mpr hall]
  rw [List.map_append]
  rcases h.stops with hfull | hstart
  · rw [window, List.take_append_of_le_length (by simp [hfull]), ← window, hself]
  · have hstart : ∀ v ∈ (rest.map (·.value)).head?, kindOf? v ≠ none := by
      simpa [List.head?_map] using hstart
    rw [window_append hstart, hself]

theorem exists_goesOnIn (later : List Literal) :
    ∃ more rest, later = more ++ rest ∧ GoesOnIn more rest := by
  let p (l : Literal) : Bool := (kindOf? l.value).isNone
  have hsplit := List.takeWhile_append_dropWhile (p := p) (l := later.take continuationLimit)
  refine ⟨(later.take continuationLimit).takeWhile p,
    (later.take continuationLimit).dropWhile p ++ later.drop continuationLimit, ?_, ?_, ?_, ?_⟩
  · rw [← List.append_assoc, hsplit, List.take_append_drop]
  · exact ((List.takeWhile_sublist p).length_le).trans (List.length_take_le _ _)
  · intro l hl
    simpa [p] using List.mem_takeWhile_imp hl
  · cases hdrop : (later.take continuationLimit).dropWhile p with
    | nil =>
      -- all that may be taken is taken, so the limit is reached or nothing is left
      rw [hdrop, List.append_nil] at hsplit
      rw [hsplit, List.nil_append, List.length_take]
      rcases Nat.le_total continuationLimit later.length with hle | hle
      · exact .inl (Nat.min_eq_left hle)
      · right
        simp [List.drop_of_length_le hle]
    | cons l rest =>
      right
      have hhead := List.head?_dropWhile_not p (later.take continuationLimit)
      simp only [hdrop, List.head?_cons, p] at hhead
      simpa [Option.isSome_iff_ne_none] using hhead

/-! ## Texts of statements -/

theorem foldl_joined (text : List Char) (vs : List (List Char)) :
    vs.foldl (fun text v => text ++ ' ' :: trim v) text =
      [' '].intercalate (text :: vs.map trim) := by
  induction vs generalizing text with
  | nil => simp
  | cons v vs ih =>
    rw [List.foldl_cons, ih, List.map_cons, intercalate_cons_cons]
    cases vs <;> simp

theorem statementText_eq (first : List Char) (later : List (List Char)) :
    statementText first later = [' '].intercalate ((first :: window later).map trim) :=
  foldl_joined (trim first) (window later)

theorem statementText_append {vs ws : List (List Char)} (first : List Char)
    (h : ∀ w ∈ ws.head?, kindOf? w ≠ none) :
    statementText first (vs ++ ws) = statementText first vs := by
  rw [statementText_eq, statementText_eq, window_append h]

theorem GoesOnIn.statementText_eq (h : GoesOnIn more rest) (l : Literal) :
    statementText l.value ((more ++ rest).map (·.value)) = joinedText (l :: more) := by
  rw [Sql.statementText_eq, h.window_eq, joinedText, List.map_cons, List.map_map]
  rfl

/-! ## Numbers of statements -/

theorem statementsFrom_add (n i : Nat) (vs : List (List Char)) :
    statementsFrom (n + i) vs = (statementsFrom i vs).map (Statement.shift n) := by
  induction vs generalizing i with
  | nil => rfl
  | cons v vs ih =>
    rw [statementsFrom, statementsFrom, Nat.add_assoc, ih]
    cases kindOf? v <;> rfl

theorem statementsFrom_append (i : Nat) (vs : List (List Char)) {ws : List (List Char)}
    (h : ∀ w ∈ ws.head?, kindOf? w ≠ none) :
    statementsFrom i (vs ++ ws) = statementsFrom i vs ++ statementsFrom (i + vs.length) ws := by
  induction vs generalizing i with
  | nil => rfl
  | cons v vs ih =>
    have hnumber : i + (vs.length + 1) = i + 1 + vs.length := by omega
    rw [List.cons_append, statementsFrom, statementsFrom, ih, statementText_append v h,
      List.length_cons, hnumber]
    cases kindOf? v <;> rfl

theorem exists_spreadsOver {kind : DataOpKind} (n : Nat) (later : List Literal)
    (h : kindOf? l.value = some kind) :
    ∃ more rest, later = more ++ rest ∧ GoesOnIn more rest ∧
      Statement.SpreadsOver
        { literalIndex := n
          kind
          fragment := String.ofList (trim l.value)
          table := tableOf? (statementText l.value (later.map (·.value))) } n l more := by
  obtain ⟨more, rest, rfl, hmore⟩ := exists_goesOnIn later
  exact ⟨more, rest, rfl, hmore, rfl, h, rfl, congrArg tableOf? (hmore.statementText_eq l)⟩

theorem exists_of_mem_statementsFrom {i : Nat} {literals : List Literal}
    (h : x ∈ statementsFrom i (literals.map (·.value))) :
    ∃ front l more rest, literals = front ++ l :: (more ++ rest) ∧ GoesOnIn more rest ∧
      x.SpreadsOver (i + front.length) l more := by
  induction literals generalizing i with
  | nil => simp [statementsFrom] at h
  | cons l later ih =>
    have hlater (hx : x ∈ statementsFrom (i + 1) (later.map (·.value))) :
        ∃ front k more rest, l :: later = front ++ k :: (more ++ rest) ∧ GoesOnIn more rest ∧
          x.SpreadsOver (i + front.length) k more := by
      obtain ⟨front, k, more, rest, rfl, hmore, hspreads⟩ := ih hx
      rw [Nat.add_assoc, Nat.add_comm 1] at hspreads
      exact ⟨l :: front, k, more, rest, rfl, hmore, hspreads⟩
    rw [List.map_cons, statementsFrom] at h
    split at h
    · next kind hkind =>
      rcases List.mem_cons.mp h with rfl | hx
      · obtain ⟨more, rest, rfl, hmore, hspreads⟩ := exists_spreadsOver i later hkind
        exact ⟨[], l, more, rest, rfl, hmore, hspreads⟩
      · exact hlater hx
    · exact hlater h

/-- A literal with what a statement goes on in makes up the statement, between any others. -/
theorem mem_statements_of_spreadsOver (front : List Literal) (hmore : GoesOnIn more rest)
    (h : x.SpreadsOver front.length l more) : x ∈ statements (front ++ l :: (more ++ rest)) := by
  have hstart : ∀ w ∈ ((l :: (more ++ rest)).map (·.value)).head?, kindOf? w ≠ none := by
    simp [h.kind_eq]
  rw [statements, List.map_append, statementsFrom_append 0 _ hstart, List.map_cons, statementsFrom,
    h.kind_eq, hmore.statementText_eq, ← h.table_eq, ← h.fragment_eq, List.length_map, Nat.zero_add,
    ← h.literalIndex_eq]
  exact List.mem_append_right _ List.mem_cons_self

theorem eq_of_mem_statements {literals : List Literal} (hx : x ∈ statements literals)
    (hy : y ∈ statements literals) (h : x.literalIndex = y.literalIndex) : x = y := by
  have hpairwise := statementsFrom_pairwise 0 (literals.map (·.value))
  have hnodup : ((statements literals).map (·.literalIndex)).Nodup :=
    List.pairwise_map.mpr (hpairwise.imp Nat.ne_of_lt)
  exact List.inj_on_of_nodup_map hnodup hx hy h

theorem exists_mem_statements_iff (literals : List Literal) (i : Nat) :
    (∃ x ∈ statements literals, x.literalIndex = i) ↔
      ∃ l, literals[i]? = some l ∧ kindOf? l.value ≠ none := by
  have hstarts := exists_statementsFrom_iff 0 i (literals.map (·.value))
  simpa [statements, Option.map_eq_some_iff] using hstarts

/-- Where a statement starts, literals may be cut: the statements are those of the front part,
followed by those of the back part with the numbers that its literals have in the whole. There is one
for each literal whose text starts one. The table of a statement is that of the literal it starts in
together with those it goes on in, no more than `continuationLimit` and all in front of the next
start; whatever else stands in front or behind, the literal starts the same statement. -/
theorem statements_separate :
    (∀ front back : List Literal, (∀ l ∈ back.head?, kindOf? l.value ≠ none) →
      statements (front ++ back) =
        statements front ++ (statements back).map (Statement.shift front.length)) ∧
      (∀ (literals : List Literal) (i : Nat), (∃ x ∈ statements literals, x.literalIndex = i) ↔
        ∃ l, literals[i]? = some l ∧ kindOf? l.value ≠ none) ∧
      ∀ literals, ∀ x ∈ statements literals, ∃ front l more rest,
        literals = front ++ l :: (more ++ rest) ∧ x.literalIndex = front.length ∧
          GoesOnIn more rest ∧ x.table = tableOf? (joinedText (l :: more)) ∧
          ∀ front' rest', GoesOnIn more rest' → ∀ y,
            (y ∈ statements (front' ++ l :: (more ++ rest')) ∧ y.literalIndex = front'.length) ↔
              y = { x with literalIndex := front'.length } := by
  refine ⟨fun front back h => ?_, exists_mem_statements_iff, fun literals x hx => ?_⟩
  · have hstart : ∀ w ∈ (back.map (·.value)).head?, kindOf? w ≠ none := by
      simpa [List.head?_map] using h
    have hnumber : 0 + (front.map (·.value)).length = front.length + 0 := by simp
    rw [statements, List.map_append, statementsFrom_append 0 _ hstart, hnumber, statementsFrom_add]
    rfl
  · obtain ⟨front, l, more, rest, rfl, hmore, hspreads⟩ := exists_of_mem_statementsFrom hx
    rw [Nat.zero_add] at hspreads
    refine ⟨front, l, more, rest, rfl, hspreads.literalIndex_eq, hmore, hspreads.table_eq,
      fun front' rest' hmore' y => ?_⟩
    have hmoved := (hspreads.moved (n := front'.length)).mpr rfl
    have hmem := mem_statements_of_spreadsOver front' hmore' hmoved
    constructor
    · rintro ⟨hy, hindex⟩
      exact eq_of_mem_statements hy hmem hindex
    · rintro rfl
      exact ⟨hmem, rfl⟩

/-- A query in two literals and a deletion behind it. -/
theorem statements_separate_deletion :
    kindOf? "DELETE FROM LOG".toList ≠ none ∧
      statements ([⟨⟨0, 17⟩, "SELECT ID, NOME".toList⟩, ⟨⟨18, 33⟩, "FROM CLIENTES".toList⟩] ++
          [⟨⟨34, 51⟩, "DELETE FROM LOG".toList⟩]) =
        [⟨0, .select, "SELECT ID, NOME", some "CLIENTES"⟩,
          ⟨2, .delete, "DELETE FROM LOG", some "LOG"⟩] := by
  have hstart : kindOf? "DELETE FROM LOG".toList ≠ none := by decide
  refine ⟨hstart, ?_⟩
  rw [statements_separate.1 _ _ (by simpa using hstart)]
  decide

end MigrationAudit.Sql
