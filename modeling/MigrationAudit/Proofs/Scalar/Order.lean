import MigrationAudit.Scalar
import Mathlib

/-!
# The order of scalars

Not every scalar has to be a number. Those that are can be compared with one another; what is not a
number is not even as great as itself. Floating-point values are ordered by their kind, their
exponent and their mantissa.
-/

namespace MigrationAudit

/-- A scalar that is as great as itself. -/
def Scalar.IsNumber {α : Type} [Scalar α] (a : α) : Prop := a ≤ a

class OrderedScalar (α : Type) [Scalar α] : Prop where
  le_of_lt {a b : α} : a < b → a ≤ b
  le_trans {a b c : α} : a ≤ b → b ≤ c → a ≤ c
  le_of_not_lt {a b : α} : Scalar.IsNumber a → Scalar.IsNumber b → ¬ a < b → b ≤ a
  not_lt_of_le {a b : α} : a ≤ b → ¬ b < a

instance : OrderedScalar Rat where
  le_of_lt := le_of_lt
  le_trans := le_trans
  le_of_not_lt := fun _ _ h => not_lt.mp h
  not_lt_of_le := not_lt_of_ge

/-! ## Unpacked values -/

namespace Unpacked

open Float.Model (UnpackedFloat)

/-- The place of a value in the order: its kind, its exponent and its mantissa. -/
def place? : UnpackedFloat → Option (ℤ ×ₗ ℤ ×ₗ ℤ)
  | .notANumber => none
  | .infinity .negative => some (toLex (-2, toLex (0, 0)))
  | .finite .negative m e _ => some (toLex (-1, toLex (-e, -m)))
  | .zero _ => some (toLex (0, toLex (0, 0)))
  | .finite .positive m e _ => some (toLex (1, toLex (e, m)))
  | .infinity .positive => some (toLex (2, toLex (0, 0)))

theorem place?_eq_none_iff {u : UnpackedFloat} : place? u = none ↔ u = .notANumber := by
  rcases u with ⟨_ | _⟩ | _ | ⟨_⟩ | ⟨_ | _, m, e, _⟩ <;> simp [place?]

theorem compare_toLex_of_lt {k k' : ℤ} (h : k < k') (p q : ℤ ×ₗ ℤ) :
    compare (toLex (k, p)) (toLex (k', q)) = .lt := by
  apply compare_lt_iff_lt.mpr
  exact Prod.Lex.toLex_lt_toLex.mpr (Or.inl h)

theorem compare_toLex_of_gt {k k' : ℤ} (h : k' < k) (p q : ℤ ×ₗ ℤ) :
    compare (toLex (k, p)) (toLex (k', q)) = .gt := by
  apply compare_gt_iff_gt.mpr
  exact Prod.Lex.toLex_lt_toLex.mpr (Or.inl h)

theorem compare_toLex (k e e' m m' : ℤ) :
    compare (toLex (k, toLex (e, m))) (toLex (k, toLex (e', m'))) =
      (compare e e').then (compare m m') := by
  rcases lt_trichotomy e e' with he | rfl | he
  · rw [compare_lt_iff_lt.mpr he, Ordering.lt_then, compare_lt_iff_lt]
    simp [Prod.Lex.toLex_lt_toLex, he]
  · rcases lt_trichotomy m m' with hm | rfl | hm
    · rw [compare_lt_iff_lt.mpr hm]
      simp [Prod.Lex.toLex_lt_toLex, hm, compare_lt_iff_lt]
    · simp
    · rw [compare_gt_iff_gt.mpr hm]
      simp [Prod.Lex.toLex_lt_toLex, hm, compare_gt_iff_gt]
  · rw [compare_gt_iff_gt.mpr he, Ordering.gt_then, compare_gt_iff_gt]
    simp [Prod.Lex.toLex_lt_toLex, he]

theorem compare_neg (a b : ℤ) : compare (-a) (-b) = (compare a b).swap := by
  rcases lt_trichotomy a b with h | rfl | h
  · rw [compare_lt_iff_lt.mpr h, Ordering.swap_lt, compare_gt_iff_gt]
    omega
  · simp
  · rw [compare_gt_iff_gt.mpr h, Ordering.swap_gt, compare_lt_iff_lt]
    omega

theorem compare_natCast (m n : ℕ) : compare (m : ℤ) n = compare m n := by
  rcases lt_trichotomy m n with h | rfl | h
  · rw [compare_lt_iff_lt.mpr h, compare_lt_iff_lt]
    exact Int.ofNat_lt.mpr h
  · simp
  · rw [compare_gt_iff_gt.mpr h, compare_gt_iff_gt]
    exact Int.ofNat_lt.mpr h

theorem compare_eq (u v : UnpackedFloat) :
    u.compare v = (place? u).bind fun x => (place? v).map (compare x) := by
  -- one case for each pair of kinds and signs; only finite values of one sign look any further
  rcases u with ⟨_ | _⟩ | _ | ⟨_⟩ | ⟨_ | _, m, e, _⟩ <;>
    rcases v with ⟨_ | _⟩ | _ | ⟨_⟩ | ⟨_ | _, m', e', _⟩ <;>
    simp [UnpackedFloat.compare, place?, compare_toLex, compare_toLex_of_lt, compare_toLex_of_gt,
      compare_neg, compare_natCast, Ordering.swap_then] <;>
    rfl

theorem le_iff {u v : UnpackedFloat} :
    u.le v = true ↔ ∃ x y, place? u = some x ∧ place? v = some y ∧ x ≤ y := by
  rw [UnpackedFloat.le, compare_eq]
  cases place? u <;> cases place? v <;> simp [Ordering.isLE_iff_ne_gt, compare_gt_iff_gt]

theorem lt_iff {u v : UnpackedFloat} :
    u.lt v = true ↔ ∃ x y, place? u = some x ∧ place? v = some y ∧ x < y := by
  rw [UnpackedFloat.lt, compare_eq]
  cases place? u <;> cases place? v <;> simp [compare_lt_iff_lt]

end Unpacked

/-! ## Floating-point values -/

namespace Scalar

open Unpacked

theorem float_le_iff {a b : Float} :
    a ≤ b ↔ ∃ x y, place? a.toModel.unpack = some x ∧ place? b.toModel.unpack = some y ∧ x ≤ y := by
  change decide (a.toModel.unpack.le b.toModel.unpack = true) = true ↔ _
  rw [decide_eq_true_iff, le_iff]

theorem float_lt_iff {a b : Float} :
    a < b ↔ ∃ x y, place? a.toModel.unpack = some x ∧ place? b.toModel.unpack = some y ∧ x < y := by
  change decide (a.toModel.unpack.lt b.toModel.unpack = true) = true ↔ _
  rw [decide_eq_true_iff, lt_iff]

theorem isNumber_iff {a : Float} : IsNumber a ↔ a.toModel.unpack ≠ .notANumber := by
  rw [ne_eq, ← place?_eq_none_iff, ← ne_eq, Option.ne_none_iff_exists']
  unfold IsNumber
  rw [float_le_iff]
  constructor
  · rintro ⟨x, _, hx, _⟩
    exact ⟨x, hx⟩
  · rintro ⟨x, hx⟩
    exact ⟨x, x, hx, hx, le_refl x⟩

instance : OrderedScalar Float where
  le_of_lt := by
    intro a b h
    obtain ⟨x, y, hx, hy, hlt⟩ := float_lt_iff.mp h
    exact float_le_iff.mpr ⟨x, y, hx, hy, le_of_lt hlt⟩
  le_trans := by
    intro a b c hab hbc
    obtain ⟨x, y, hx, hy, hxy⟩ := float_le_iff.mp hab
    obtain ⟨y', z, hy', hz, hyz⟩ := float_le_iff.mp hbc
    obtain rfl := Option.some.inj (hy.symm.trans hy')
    exact float_le_iff.mpr ⟨x, z, hx, hz, le_trans hxy hyz⟩
  le_of_not_lt := by
    intro a b ha hb hnot
    obtain ⟨x, _, hx, _⟩ := float_le_iff.mp ha
    obtain ⟨y, _, hy, _⟩ := float_le_iff.mp hb
    refine float_le_iff.mpr ⟨y, x, hy, hx, ?_⟩
    apply le_of_not_gt
    intro hlt
    exact hnot (float_lt_iff.mpr ⟨x, y, hx, hy, hlt⟩)
  not_lt_of_le := by
    intro a b hab hba
    obtain ⟨x, y, hx, hy, hle⟩ := float_le_iff.mp hab
    obtain ⟨y', x', hy', hx', hlt⟩ := float_lt_iff.mp hba
    obtain rfl := Option.some.inj (hx.symm.trans hx')
    obtain rfl := Option.some.inj (hy.symm.trans hy')
    exact not_lt_of_ge hle hlt

end Scalar

end MigrationAudit
