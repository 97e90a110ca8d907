import MigrationAudit.Scalar
import Mathlib.Algebra.BigOperators.Group.List.Basic
import Mathlib.Algebra.Order.BigOperators.Group.List
import Mathlib.Algebra.Order.Ring.Rat
import Mathlib.Data.Rat.Floor
import Mathlib.Tactic.Linarith

/-!
# Exact arithmetic

Rational scalars are summed, bounded and rounded as rational numbers are; rounding keeps their order.
-/

namespace MigrationAudit

theorem roundHalfAway_mono {a b : Rat} (h : a ≤ b) : roundHalfAway a ≤ roundHalfAway b := by
  unfold roundHalfAway
  split <;> split
  · exact neg_le_neg (Rat.floor_monotone (by linarith))
  · -- a negative number is not rounded above zero, the other one not below
    have hfloor : 0 ≤ (-a + 1 / 2).floor := Rat.le_floor_iff.mpr (by push_cast; linarith)
    have hfloor' : 0 ≤ (b + 1 / 2).floor := Rat.le_floor_iff.mpr (by push_cast; linarith)
    omega
  · linarith
  · exact Rat.floor_monotone (by linarith)

theorem roundHalfAway_intCast (n : ℤ) : roundHalfAway n = n := by
  have hhalf (k : ℤ) : ((k : Rat) + 1 / 2).floor = k := by
    rw [add_comm, Rat.floor_add_intCast]
    exact (congrArg (· + k) (by decide +kernel : (1 / 2 : Rat).floor = 0)).trans (zero_add k)
  unfold roundHalfAway
  split
  · rw [← Int.cast_neg, hhalf, neg_neg]
  · exact hhalf n

/-- Above zero, what is behind the point decides. -/
theorem roundHalfAway_eq_floor {a : Rat} (h : 0 ≤ a) :
    roundHalfAway a = if a - ⌊a⌋₊ < 1 / 2 then (⌊a⌋₊ : ℤ) else ⌊a⌋₊ + 1 := by
  have hlow := Nat.floor_le h
  have hhigh := Nat.lt_floor_add_one a
  have hfloor (n : ℤ) (hle : n ≤ a + 1 / 2) (hlt : a + 1 / 2 < n + 1) : roundHalfAway a = n := by
    rw [roundHalfAway, if_neg (not_lt.mpr h)]
    apply le_antisymm
    · exact Int.lt_add_one_iff.mp (Rat.floor_lt_iff.mpr (by exact_mod_cast hlt))
    · exact Rat.le_floor_iff.mpr hle
  split
  · apply hfloor <;> push_cast <;> linarith
  · apply hfloor <;> push_cast <;> linarith

namespace Scalar

theorem roundTo_mono (parts : Nat) {a b : Rat} (h : a ≤ b) : roundTo parts a ≤ roundTo parts b := by
  have hscaled : a * parts ≤ b * parts := mul_le_mul_of_nonneg_right h (Nat.cast_nonneg parts)
  have hround : (roundHalfAway (a * parts) : Rat) ≤ roundHalfAway (b * parts) := by
    exact_mod_cast roundHalfAway_mono hscaled
  exact div_le_div_of_nonneg_right hround (Nat.cast_nonneg parts)

theorem roundTo_div {parts : Nat} (h : 0 < parts) (n : ℤ) :
    roundTo parts ((n : Rat) / parts) = n / parts := by
  have hscaled : (n : Rat) / parts * parts = n := div_mul_cancel₀ _ (Nat.cast_ne_zero.mpr h.ne')
  change (roundHalfAway ((n : Rat) / parts * parts) : Rat) / parts = _
  rw [hscaled, roundHalfAway_intCast]

theorem roundTo_roundTo {parts : Nat} (h : 0 < parts) (a : Rat) :
    roundTo parts (roundTo parts a) = roundTo parts a :=
  roundTo_div h _

theorem min_le_right (a b : Rat) : Scalar.min a b ≤ b := by
  unfold Scalar.min
  split <;> linarith

theorem le_max_right (a b : Rat) : b ≤ Scalar.max a b := by
  unfold Scalar.max
  split <;> linarith

theorem sum_eq (l : List Rat) : Scalar.sum l = l.sum := by
  rw [List.sum_eq_foldl]
  rfl

theorem sum_mono {l l' : List Rat} (h : List.Forall₂ (· ≤ ·) l l') :
    Scalar.sum l ≤ Scalar.sum l' := by
  rw [sum_eq, sum_eq]
  exact h.sum_le_sum

theorem mean_bounds {l : List Rat} (hl : l ≠ []) {low high : Rat}
    (h : ∀ a ∈ l, low ≤ a ∧ a ≤ high) :
    low ≤ sum l / ofNat l.length ∧ sum l / ofNat l.length ≤ high := by
  have hcount : (0 : Rat) < l.length := Nat.cast_pos.mpr (List.length_pos_of_ne_nil hl)
  have hleast := l.card_nsmul_le_sum low fun a ha => (h a ha).1
  have hgreatest := l.sum_le_card_nsmul high fun a ha => (h a ha).2
  rw [nsmul_eq_mul, mul_comm] at hleast hgreatest
  rw [sum_eq]
  exact ⟨(le_div_iff₀ hcount).mpr hleast, (div_le_iff₀ hcount).mpr hgreatest⟩

end Scalar

end MigrationAudit
