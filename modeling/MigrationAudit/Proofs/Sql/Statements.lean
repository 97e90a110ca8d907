import MigrationAudit.Sql.Statement
import Mathlib.Order.Nat

/-!
# Statements by number

A statement is found in a literal by the text of the literal alone, and it names the literal by its
number. So the numbers go up, and every statement is one on data.
-/

namespace MigrationAudit.Sql

open Source Text

theorem isSql_of_kindOf? {cs : List Char} {kind : DataOpKind} (h : kindOf? cs = some kind) :
    kind.isSql = true := by
  have hverb : ∀ verb k, verbKind? verb = some k → k.isSql = true := by
    intro verb k hk
    unfold verbKind? at hk
    split at hk
    all_goals first
      | cases hk; rfl
      | (split at hk <;> cases hk; rfl)
  unfold kindOf? at h
  simp only at h
  split at h
  · cases h
  · split at h
    · next k hk =>
      split at h
      · obtain rfl := Option.some.inj h
        exact hverb _ _ hk
      · cases h
    · cases h

theorem index_le_of_mem_statementsFrom {i : Nat} {vs : List (List Char)} {x : Statement}
    (h : x ∈ statementsFrom i vs) : i ≤ x.literalIndex := by
  induction vs generalizing i with
  | nil => simp [statementsFrom] at h
  | cons v vs ih =>
    have hlater : x ∈ statementsFrom (i + 1) vs → i ≤ x.literalIndex :=
      fun hx => (Nat.le_succ i).trans (ih hx)
    rw [statementsFrom] at h
    split at h
    · rcases List.mem_cons.mp h with rfl | hx
      · exact le_rfl
      · exact hlater hx
    · exact hlater h

theorem statementsFrom_pairwise (i : Nat) (vs : List (List Char)) :
    (statementsFrom i vs).Pairwise fun x y => x.literalIndex < y.literalIndex := by
  induction vs generalizing i with
  | nil => exact .nil
  | cons v vs ih =>
    rw [statementsFrom]
    split
    · exact List.pairwise_cons.mpr ⟨fun y hy => index_le_of_mem_statementsFrom hy, ih _⟩
    · exact ih _

theorem exists_statementsFrom_iff (i j : Nat) (vs : List (List Char)) :
    (∃ x ∈ statementsFrom i vs, x.literalIndex = i + j) ↔
      ∃ v, vs[j]? = some v ∧ kindOf? v ≠ none := by
  induction vs generalizing i j with
  | nil => simp [statementsFrom]
  | cons v vs ih =>
    cases j with
    | zero =>
      have hnone : ∀ x ∈ statementsFrom (i + 1) vs, x.literalIndex ≠ i := fun x hx heq =>
        absurd (index_le_of_mem_statementsFrom hx) (by omega)
      rw [statementsFrom]
      split
      · next hkind => simp [hkind]
      · next hkind => simpa [hkind] using hnone
    | succ j =>
      have hstep := ih (i + 1) j
      rw [Nat.add_right_comm, Nat.add_assoc] at hstep
      rw [List.getElem?_cons_succ, ← hstep, statementsFrom]
      split
      · constructor
        · rintro ⟨x, hx, hindex⟩
          rcases List.mem_cons.mp hx with rfl | hx
          · simp at hindex
          · exact ⟨x, hx, hindex⟩
        · rintro ⟨x, hx, hindex⟩
          exact ⟨x, List.mem_cons_of_mem _ hx, hindex⟩
      · rfl

theorem kind_of_mem_statementsFrom {i : Nat} {vs : List (List Char)} {x : Statement}
    (h : x ∈ statementsFrom i vs) :
    ∃ v, vs[x.literalIndex - i]? = some v ∧ kindOf? v = some x.kind ∧
      x.fragment = String.ofList (trim v) := by
  induction vs generalizing i with
  | nil => simp [statementsFrom] at h
  | cons v vs ih =>
    have hlater : x ∈ statementsFrom (i + 1) vs →
        ∃ u, (v :: vs)[x.literalIndex - i]? = some u ∧ kindOf? u = some x.kind ∧
          x.fragment = String.ofList (trim u) := by
      intro hx
      have hle := index_le_of_mem_statementsFrom hx
      rw [show x.literalIndex - i = x.literalIndex - (i + 1) + 1 by omega,
        List.getElem?_cons_succ]
      exact ih hx
    rw [statementsFrom] at h
    split at h
    · next kind hkind =>
      rcases List.mem_cons.mp h with rfl | hx
      · exact ⟨v, by simp, hkind, rfl⟩
      · exact hlater hx
    · exact hlater h

theorem literal_of_mem_statements {source : Masked} {x : Statement}
    (h : x ∈ statements source.literals) :
    ∃ l, source.literals[x.literalIndex]? = some l ∧ kindOf? l.value = some x.kind ∧
      x.fragment = String.ofList (trim l.value) := by
  obtain ⟨v, hv, hkind, hfragment⟩ := kind_of_mem_statementsFrom h
  rw [List.getElem?_map, Nat.sub_zero] at hv
  obtain ⟨l, hl, rfl⟩ := Option.map_eq_some_iff.mp hv
  exact ⟨l, hl, hkind, hfragment⟩

end MigrationAudit.Sql
