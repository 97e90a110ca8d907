import Mathlib.Data.List.Basic

/-!
# Numbers behind a separator

A text that goes on with a separator and a number is parted by the last separator, as no digit is
one. So the text in front and the number can be read off the whole.
-/

namespace MigrationAudit.Text

theorem notMem_repr {a : Char} (ha : a.isDigit = false) (n : Nat) : a ∉ n.repr.toList := by
  rw [Nat.toList_repr]
  intro h
  have hdigit : a.isDigit = true := Nat.isDigit_of_mem_toDigits (by decide) (by decide) h
  exact absurd hdigit (by simp [ha])

theorem repr_injective : Function.Injective Nat.repr := by
  intro m n h
  have hdigits := congrArg String.toList h
  rw [Nat.toList_repr, Nat.toList_repr] at hdigits
  have hvalue := congrArg (Nat.ofDigitChars 10 · 0) hdigits
  simpa only [Nat.ofDigitChars_ten_toDigits] using hvalue

section LastSeparator

variable {sep : Char} {xs xs' ys ys' : List Char}

theorem eq_of_append_cons (hys : sep ∉ ys) (h : xs ++ sep :: ys = xs' ++ sep :: ys')
    (hlonger : ∃ zs, xs' = xs ++ zs) : xs = xs' ∧ ys = ys' := by
  obtain ⟨zs, rfl⟩ := hlonger
  rw [List.append_assoc, List.append_cancel_left_eq] at h
  cases zs with
  | nil =>
    obtain ⟨-, rfl⟩ := List.cons.inj h
    exact ⟨(List.append_nil xs).symm, rfl⟩
  | cons z zs =>
    obtain ⟨-, rfl⟩ := List.cons.inj h
    exact absurd (List.mem_append_right zs List.mem_cons_self) hys

/-- The last separator of a text parts it in only one way. -/
theorem append_cons_inj (hys : sep ∉ ys) (hys' : sep ∉ ys')
    (h : xs ++ sep :: ys = xs' ++ sep :: ys') : xs = xs' ∧ ys = ys' := by
  rcases List.append_eq_append_iff.mp h with ⟨zs, hzs, -⟩ | ⟨zs, hzs, -⟩
  · exact eq_of_append_cons hys h ⟨zs, hzs⟩
  · have hsymm := eq_of_append_cons hys' h.symm ⟨zs, hzs⟩
    exact ⟨hsymm.1.symm, hsymm.2.symm⟩

/-- Of two different separators in two texts, each with the rest of its text free of the other one,
one would be the last in both. -/
theorem append_cons_ne {sep' : Char} (hne : sep ≠ sep') (hys : sep' ∉ ys) (hys' : sep ∉ ys') :
    xs ++ sep :: ys ≠ xs' ++ sep' :: ys' := by
  intro h
  rcases List.append_eq_append_iff.mp h with ⟨zs, -, hzs⟩ | ⟨zs, -, hzs⟩
  · -- the second separator is in the tail of the first text
    have hmem : sep' ∈ sep :: ys := hzs ▸ List.mem_append_right zs List.mem_cons_self
    exact (List.mem_cons.mp hmem).elim hne.symm hys
  · have hmem : sep ∈ sep' :: ys' := hzs ▸ List.mem_append_right zs List.mem_cons_self
    exact (List.mem_cons.mp hmem).elim hne hys'

end LastSeparator

end MigrationAudit.Text
