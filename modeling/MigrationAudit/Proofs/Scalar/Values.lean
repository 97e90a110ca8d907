import MigrationAudit.Proofs.Scalar.Exact
import MigrationAudit.Proofs.Scalar.Canonical

/-!
# The values of floating-point numbers

A floating-point number without a negative sign is infinite or has a value. The operations on such
numbers are those on their values, followed by rounding, and rounding keeps the order. The nearest
whole number is found without any rounding.
-/

namespace MigrationAudit

open Float.Model (Format UnpackedFloat)
open Unpacked

/-- The value of a floating-point number that is neither negative nor infinite. -/
def HasValue (a : Float) (x : ℚ) : Prop := Represents a.toModel.unpack x

/-- A floating-point number is what a value is rounded to. -/
def IsRounded (a : Float) (x : ℚ) : Prop :=
  ∃ u, Represents u (rounded x) ∧ a.toModel.unpack = (Float.Model.pack u).unpack

def IsUnsigned (a : Float) : Prop := IsPositive a.toModel.unpack

/-- The greatest floating-point number. -/
def infinity : Float := Float.ofModel (Float.Model.pack (.infinity .positive))

section Values

variable {a b : Float} {x y : ℚ}

theorem float_eq_of_unpack_eq (h : a.toModel.unpack = b.toModel.unpack)
    (hnumber : a.toModel.unpack ≠ .notANumber) : a = b := by
  obtain ⟨a⟩ := a
  obtain ⟨b⟩ := b
  exact congrArg Float.ofModel (eq_of_unpack_eq h hnumber)

theorem float_le_iff_unpack : a ≤ b ↔ a.toModel.unpack.le b.toModel.unpack = true := by
  rw [Scalar.float_le_iff, le_iff]

theorem float_lt_iff_unpack : a < b ↔ a.toModel.unpack.lt b.toModel.unpack = true := by
  rw [Scalar.float_lt_iff, lt_iff]

/-! ## Values -/

theorem HasValue.isUnsigned (h : HasValue a x) : IsUnsigned a := h.isPositive

theorem HasValue.le_iff (ha : HasValue a x) (hb : HasValue b y) : a ≤ b ↔ x ≤ y :=
  float_le_iff_unpack.trans (Represents.le_iff_le ha hb)

theorem HasValue.lt_iff (ha : HasValue a x) (hb : HasValue b y) : a < b ↔ x < y :=
  float_lt_iff_unpack.trans (Represents.lt_iff_lt ha hb)

theorem isUnsigned_infinity : IsUnsigned infinity := trivial

theorem IsUnsigned.le_infinity (h : IsUnsigned a) : a ≤ infinity :=
  float_le_iff_unpack.mpr (IsPositive.le_infinity h)

theorem IsUnsigned.isNumber (h : IsUnsigned a) : Scalar.IsNumber a :=
  Scalar.isNumber_iff.mpr h.ne_notANumber

theorem IsUnsigned.eq_of_le_of_le (ha : IsUnsigned a) (hb : IsUnsigned b) (h : a ≤ b)
    (h' : b ≤ a) : a = b := by
  apply float_eq_of_unpack_eq _ ha.ne_notANumber
  exact IsPositive.eq_of_le_of_le ha hb (float_le_iff_unpack.mp h) (float_le_iff_unpack.mp h')

theorem HasValue.eq (ha : HasValue a x) (hb : HasValue b x) : a = b :=
  ha.isUnsigned.eq_of_le_of_le hb.isUnsigned ((ha.le_iff hb).mpr le_rfl) ((hb.le_iff ha).mpr le_rfl)

theorem IsUnsigned.cases (h : IsUnsigned a) : a = infinity ∨ ∃ x < 2 ^ 1024, HasValue a x := by
  rcases IsPositive.cases h with hinfinite | hvalue
  · exact Or.inl (float_eq_of_unpack_eq hinfinite h.ne_notANumber)
  · exact Or.inr hvalue

theorem HasValue.lt_limit (h : HasValue a x) : x < 2 ^ 1024 := by
  rcases IsPositive.cases h.isUnsigned with hinfinite | ⟨y, hy, hrep⟩
  · unfold HasValue at h
    rw [hinfinite] at h
    cases h
  · rwa [Represents.unique h hrep]

/-! ## Rounded values -/

theorem IsRounded.le (ha : IsRounded a x) (hb : IsRounded b y) (hx : 0 ≤ x) (h : x ≤ y) :
    a ≤ b := by
  obtain ⟨u, hu, heq⟩ := ha
  obtain ⟨v, hv, heq'⟩ := hb
  rw [float_le_iff_unpack, heq, heq']
  exact hu.pack_mono hv (rounded_mono hx h)

theorem IsRounded.isUnsigned (h : IsRounded a x) : IsUnsigned a := by
  obtain ⟨u, hu, heq⟩ := h
  unfold IsUnsigned
  rw [heq]
  exact hu.isPositive_unpack_pack

theorem IsRounded.hasValue_rounded (h : IsRounded a x) (hlt : rounded x < 2 ^ 1024) :
    HasValue a (rounded x) := by
  obtain ⟨u, hu, heq⟩ := h
  obtain ⟨_, hunpack⟩ := hu.unpack_pack.resolve_right fun hlarge => hlt.not_ge hlarge.1
  unfold HasValue
  rw [heq, hunpack]
  exact hu

/-- What needs no rounding is the value of what it is rounded to. -/
theorem IsRounded.hasValue (h : IsRounded a x) (hx : rounded x = x) (hlt : x < 2 ^ 1024) :
    HasValue a x := by
  rw [← hx] at hlt
  simpa only [hx] using h.hasValue_rounded hlt

theorem HasValue.unpack_pack (h : HasValue a x) :
    (Float.Model.pack a.toModel.unpack).unpack = a.toModel.unpack :=
  ((Represents.unpack_pack h).resolve_right fun hlarge => h.lt_limit.not_ge hlarge.1).2

theorem HasValue.isRounded (h : HasValue a x) : IsRounded a x := by
  refine ⟨a.toModel.unpack, ?_, h.unpack_pack.symm⟩
  rw [Represents.rounded_eq h]
  exact h

/-! ## Operations -/

theorem HasValue.add (ha : HasValue a x) (hb : HasValue b y) : IsRounded (a + b) (x + y) :=
  ⟨_, Represents.add ha hb, rfl⟩

theorem HasValue.sub (ha : HasValue a x) (hb : HasValue b y) (h : y ≤ x) :
    IsRounded (a - b) (x - y) :=
  ⟨_, Represents.sub ha hb h, rfl⟩

theorem HasValue.mul (ha : HasValue a x) (hb : HasValue b y) : IsRounded (a * b) (x * y) :=
  ⟨_, Represents.mul ha hb, rfl⟩

theorem HasValue.div (ha : HasValue a x) (hb : HasValue b y) (hy : 0 < y) :
    IsRounded (a / b) (x / y) :=
  ⟨_, Represents.div ha hb hy, rfl⟩

/-- Counts that do not fit a machine word are cut to the greatest one. -/
theorem toNat_ofNatClamp (n : ℕ) : (UInt64.ofNatClamp n).toNat = min n (2 ^ 64 - 1) := by
  unfold UInt64.ofNatClamp
  split
  · rename_i h
    change n = _
    change n < 2 ^ 64 at h
    omega
  · rename_i h
    change 2 ^ 64 - 1 = _
    change ¬ n < 2 ^ 64 at h
    omega

theorem isRounded_ofNat (n : ℕ) :
    IsRounded (Scalar.ofNat n : Float) (min n (2 ^ 64 - 1) : ℕ) := by
  have hrep := represents_normalize (Int.natCast_nonneg (UInt64.ofNatClamp n).toNat) 0
  rw [Int.cast_natCast, zpow_zero, mul_one, toNat_ofNatClamp] at hrep
  refine ⟨_, hrep, ?_⟩
  rw [← toNat_ofNatClamp]
  rfl

theorem natCast_lt_limit {n : ℕ} (h : n < 2 ^ 53) : (n : ℚ) < 2 ^ 1024 := by
  calc (n : ℚ) < 2 ^ 53 := by exact_mod_cast h
    _ < 2 ^ 1024 := pow_lt_pow_right₀ one_lt_two (by decide)

/-- Counts below `2 ^ 53` are not rounded. -/
theorem hasValue_ofNat {n : ℕ} (h : n < 2 ^ 53) : HasValue (Scalar.ofNat n) n := by
  have hrounded := isRounded_ofNat n
  rw [min_eq_left (by omega)] at hrounded
  exact hrounded.hasValue (rounded_natCast h) (natCast_lt_limit h)

theorem exists_hasValue_ofNat (n : ℕ) :
    ∃ x, HasValue (Scalar.ofNat n) x ∧ (0 < n → 0 < x) := by
  have hhigh : rounded (min n (2 ^ 64 - 1) : ℕ) < 2 ^ 1024 := by
    calc rounded (min n (2 ^ 64 - 1) : ℕ) ≤ rounded ((1 : ℕ) * 2 ^ (64 : ℤ)) := by
          apply rounded_mono (Nat.cast_nonneg _)
          rw [Nat.cast_one, one_mul]
          exact_mod_cast (min_le_right _ _).trans (Nat.sub_le _ _)
      _ = (1 : ℕ) * 2 ^ (64 : ℤ) := rounded_eq_self (by decide) (by decide)
      _ < 2 ^ 1024 := by
          rw [Nat.cast_one, one_mul, show (64 : ℤ) = (64 : ℕ) from rfl, zpow_natCast]
          exact pow_lt_pow_right₀ one_lt_two (by decide)
  refine ⟨_, (isRounded_ofNat n).hasValue_rounded hhigh, fun hpos => ?_⟩
  calc (0 : ℚ) < (1 : ℕ) := by norm_num
    _ = rounded (1 : ℕ) := (rounded_natCast (by decide)).symm
    _ ≤ rounded (min n (2 ^ 64 - 1) : ℕ) :=
        rounded_mono (Nat.cast_nonneg 1) (Nat.cast_le.mpr (le_min hpos (by decide)))

/-! ## Infinity -/

theorem infinity_add (h : IsUnsigned a) : infinity + a = infinity := by
  change Float.ofModel (Float.Model.pack (UnpackedFloat.add Format.binary64
    (.infinity .positive) a.toModel.unpack)) = _
  unfold IsUnsigned at h
  generalize a.toModel.unpack = u at h ⊢
  rcases u with ⟨_ | _⟩ | _ | ⟨_ | _⟩ | ⟨_ | _, m, e, _⟩ <;> first | exact False.elim h | rfl

theorem add_infinity (h : IsUnsigned a) : a + infinity = infinity := by
  change Float.ofModel (Float.Model.pack (UnpackedFloat.add Format.binary64
    a.toModel.unpack (.infinity .positive))) = _
  unfold IsUnsigned at h
  generalize a.toModel.unpack = u at h ⊢
  rcases u with ⟨_ | _⟩ | _ | ⟨_ | _⟩ | ⟨_ | _, m, e, _⟩ <;> first | exact False.elim h | rfl

theorem HasValue.exists_finite (h : HasValue a x) (hx : 0 < x) :
    ∃ m e hm, a.toModel.unpack = .finite .positive m e hm := by
  unfold HasValue at h
  generalize a.toModel.unpack = u at h ⊢
  cases h with
  | zero => exact absurd hx (lt_irrefl 0)
  | finite hm => exact ⟨_, _, hm, rfl⟩

theorem infinity_mul (h : HasValue a x) (hx : 0 < x) : infinity * a = infinity := by
  obtain ⟨m, e, hm, heq⟩ := h.exists_finite hx
  change Float.ofModel (Float.Model.pack (UnpackedFloat.mul Format.binary64
    (.infinity .positive) a.toModel.unpack)) = _
  rw [heq]
  rfl

theorem mul_infinity (h : HasValue a x) (hx : 0 < x) : a * infinity = infinity := by
  obtain ⟨m, e, hm, heq⟩ := h.exists_finite hx
  change Float.ofModel (Float.Model.pack (UnpackedFloat.mul Format.binary64
    a.toModel.unpack (.infinity .positive))) = _
  rw [heq]
  rfl

theorem infinity_div (h : HasValue a x) (hx : 0 < x) : infinity / a = infinity := by
  obtain ⟨m, e, hm, heq⟩ := h.exists_finite hx
  change Float.ofModel (Float.Model.pack (UnpackedFloat.div Format.binary64
    (.infinity .positive) a.toModel.unpack)) = _
  rw [heq]
  rfl

/-! ## Ratios -/

theorem hasValue_zero : HasValue 0 0 := by
  rw [show (0 : Float) = Scalar.ofNat 0 by decide +kernel]
  exact_mod_cast hasValue_ofNat (n := 0) (by decide)

theorem hasValue_one : HasValue 1 1 := by
  rw [show (1 : Float) = Scalar.ofNat 1 by decide +kernel]
  exact_mod_cast hasValue_ofNat (n := 1) (by decide)

theorem Scalar.ratio_self {n : ℕ} (h : 0 < n) : (ratio n n : Float) = 1 := by
  obtain ⟨x, hx, hpos⟩ := exists_hasValue_ofNat n
  have hquotient := hx.div hx (hpos h)
  rw [div_self (hpos h).ne'] at hquotient
  exact (hquotient.hasValue (Represents.rounded_eq hasValue_one) hasValue_one.lt_limit).eq
    hasValue_one

theorem Scalar.ratio_zero {n : ℕ} (h : 0 < n) : (ratio 0 n : Float) = 0 := by
  obtain ⟨x, hx, hpos⟩ := exists_hasValue_ofNat n
  have hquotient := (hasValue_ofNat (n := 0) (by decide)).div hx (hpos h)
  rw [Nat.cast_zero, zero_div] at hquotient
  exact (hquotient.hasValue (Represents.rounded_eq hasValue_zero) hasValue_zero.lt_limit).eq
    hasValue_zero

/-! ## Whole numbers -/

theorem HasValue.abs_eq (h : HasValue a x) : a.abs = a := by
  apply Eq.symm
  apply float_eq_of_unpack_eq _ h.isUnsigned.ne_notANumber
  change _ = (Float.Model.pack a.toModel.unpack.abs).unpack
  rw [Represents.abs_eq h, h.unpack_pack]

theorem toFloat_toUInt64 (h : HasValue a x) : a.toUInt64.toFloat = Scalar.ofNat ⌊x⌋₊ := by
  change (UInt64.ofNatClamp (a.toModel.unpack.toInt 0 (UInt64.size - 1)).toNat).toFloat = _
  rw [Represents.toInt_eq h]
  rfl

theorem hasValue_half : HasValue 0.5 (1 / 2) := by
  have hself := rounded_eq_self (show 1 < 2 ^ 53 by decide) (show -1074 ≤ (-1 : ℤ) by decide)
  rw [Nat.cast_one, one_mul, zpow_neg_one, ← one_div] at hself
  have hdiv := hasValue_one.div (hasValue_ofNat (n := 2) (by decide)) (by norm_num)
  push_cast at hdiv
  rw [show (0.5 : Float) = 1 / Scalar.ofNat 2 by decide +kernel]
  exact hdiv.hasValue hself (one_half_lt_one.trans (one_lt_pow₀ one_lt_two (by decide)))

theorem hasValue_roundFloat (h : HasValue a x) : HasValue (roundFloat a) (roundHalfAway x) := by
  have hnonneg : 0 ≤ x := Represents.nonneg h
  have hlimit : HasValue 4503599627370496 (2 ^ 52 : ℕ) := by
    rw [show (4503599627370496 : Float) = Scalar.ofNat (2 ^ 52) by decide +kernel]
    exact hasValue_ofNat (by decide)
  unfold roundFloat
  simp only [h.abs_eq, toFloat_toUInt64 h, hasValue_zero.lt_iff h, h.lt_iff hlimit,
    h.lt_iff hasValue_zero]
  by_cases hsmall : 0 < x ∧ x < (2 ^ 52 : ℕ)
  · have hfloor : ⌊x⌋₊ < 2 ^ 52 := (Nat.floor_lt hnonneg).mpr hsmall.2
    have hwhole : HasValue (Scalar.ofNat ⌊x⌋₊) ⌊x⌋₊ := hasValue_ofNat (by omega)
    have hnext : HasValue (Scalar.ofNat ⌊x⌋₊ + 1) (⌊x⌋₊ + 1 : ℕ) := by
      have hsum := hwhole.add hasValue_one
      rw [← Nat.cast_add_one] at hsum
      exact hsum.hasValue (rounded_natCast (by omega)) (natCast_lt_limit (by omega))
    -- the difference has no more bits than the number itself
    have hbehind : HasValue (a - Scalar.ofNat ⌊x⌋₊) (x - ⌊x⌋₊) := by
      apply (h.sub hwhole (Nat.floor_le hnonneg)).hasValue (Represents.rounded_fraction h)
      exact (sub_le_self x (Nat.cast_nonneg _)).trans_lt h.lt_limit
    rw [if_pos hsmall, if_neg (not_lt.mpr hnonneg), roundHalfAway_eq_floor hnonneg]
    simp only [hbehind.lt_iff hasValue_half]
    split
    · exact_mod_cast hwhole
    · exact_mod_cast hnext
  · obtain ⟨n, rfl⟩ : ∃ n : ℕ, x = n := by
      rcases not_and_or.mp hsmall with hle | hge
      · exact ⟨0, le_antisymm (by exact_mod_cast not_lt.mp hle) (by exact_mod_cast hnonneg)⟩
      · exact Represents.exists_natCast h (by exact_mod_cast not_lt.mp hge)
    rw [if_neg hsmall, ← Int.cast_natCast (R := ℚ) n, roundHalfAway_intCast, Int.cast_natCast]
    exact h

end Values

end MigrationAudit
