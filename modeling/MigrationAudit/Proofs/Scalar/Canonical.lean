import MigrationAudit.Proofs.Scalar.Nearest

/-!
# Canonical values

Numbers that are not negative are kept with 53 bits, or with the least exponent. In this form they
are ordered as their values are. Sums, differences, products and quotients of such numbers are the
rounded sums, differences, products and quotients of their values.
-/

namespace MigrationAudit

open Float.Model (Format UnpackedFloat)
open Float.Model.UnpackedFloat (Accuracy ExtendedMantissa Sign)

namespace Unpacked

/-- A number that is not negative, in canonical form, with its value. The exponent may still be too
great to be packed. -/
inductive Represents : UnpackedFloat → ℚ → Prop
  | zero : Represents (.zero .positive) 0
  | finite {m : ℕ} {e : ℤ} (hm : 0 < m) (hlt : m < 2 ^ 53) (he : -1074 ≤ e)
      (hfull : 2 ^ 52 ≤ m ∨ e = -1074) : Represents (.finite .positive m e hm) (m * 2 ^ e)

/-! ## Exponents -/

theorem targetExponent_eq (t : ℤ) : Format.binary64.targetExponent t = max (t - 53) (-1074) :=
  rfl

/-- The exponent that a mantissa is shifted to is the one of the value. -/
theorem targetExponent_totalExponent {m : ℕ} {y : ℚ} {e : ℤ} (hle : m ≤ y) (hlt : y < m + 1)
    (hy : 0 < y) (he : e ≤ exponentOf (y * 2 ^ e)) :
    Format.binary64.targetExponent (Float.Model.totalExponent m e) = exponentOf (y * 2 ^ e) := by
  rw [targetExponent_eq, Float.Model.totalExponent]
  rcases Nat.eq_zero_or_pos m with rfl | hm
  · -- a value below its unit only fits the least exponent
    have hsmall : Int.log 2 (y * 2 ^ e) < e := by
      apply (Int.lt_zpow_iff_log_lt (by decide) (mul_pos hy (two_zpow_pos e))).mp
      rw [Nat.cast_two]
      apply mul_lt_of_lt_one_left (two_zpow_pos e)
      simpa using hlt
    rw [Nat.log2_zero]
    unfold exponentOf at he ⊢
    omega
  · rw [exponentOf, log_mul_zpow hm hle hlt]
    omega

namespace Represents

variable {u v : UnpackedFloat} {x y : ℚ}

theorem nonneg (h : Represents u x) : 0 ≤ x := by
  cases h with
  | zero => exact le_rfl
  | finite => exact mul_nonneg (Nat.cast_nonneg _) (two_zpow_pos _).le

theorem abs_eq (h : Represents u x) : u.abs = u := by
  cases h <;> rfl

theorem rounded_eq (h : Represents u x) : rounded x = x := by
  cases h with
  | zero => exact rounded_zero
  | finite hm hlt he => exact rounded_eq_self hlt he

end Represents

/-! ## Rounding -/

theorem shiftToTargetExponent_of_lt {r : ℕ} {e : ℤ} (hlt : r < 2 ^ 53) (he : -1074 ≤ e) :
    UnpackedFloat.shiftToTargetExponent Format.binary64 r e .exact = (⟨r, false, false⟩, e) := by
  have hlog : r.log2 < 53 := by
    rcases Nat.eq_zero_or_pos r with rfl | hpos
    · decide
    · exact (Nat.log2_lt hpos.ne').mpr hlt
  have hstay : (Format.binary64.targetExponent (Float.Model.totalExponent r e) - e).toNat = 0 := by
    rw [targetExponent_eq, Float.Model.totalExponent]
    omega
  unfold UnpackedFloat.shiftToTargetExponent UnpackedFloat.shiftToExponent
  simp only [hstay, Nat.cast_zero, add_zero]
  rfl

theorem shiftToTargetExponent_carried {e : ℤ} (he : -1074 ≤ e) :
    UnpackedFloat.shiftToTargetExponent Format.binary64 (2 ^ 53) e .exact =
      (⟨2 ^ 52, false, false⟩, e + 1) := by
  have hnext :
      (Format.binary64.targetExponent (Float.Model.totalExponent (2 ^ 53) e) - e).toNat = 1 := by
    rw [targetExponent_eq, Float.Model.totalExponent, Nat.log2_two_pow]
    omega
  unfold UnpackedFloat.shiftToTargetExponent UnpackedFloat.shiftToExponent
  simp only [hnext]
  rfl

/-- A mantissa that has been rounded is shifted once more only if it has carried. -/
theorem represents_shifted {r : ℕ} {e : ℤ} (hr : r ≤ 2 ^ 53) (he : -1074 ≤ e)
    (hfull : 2 ^ 52 ≤ r ∨ e = -1074) :
    Represents
      (if h : (UnpackedFloat.shiftToTargetExponent Format.binary64 r e .exact).1.mantissa = 0 then
        .zero .positive
      else
        .finite .positive
          (UnpackedFloat.shiftToTargetExponent Format.binary64 r e .exact).1.mantissa
          (UnpackedFloat.shiftToTargetExponent Format.binary64 r e .exact).2
          (Nat.pos_of_ne_zero h))
      (r * 2 ^ e) := by
  rcases hr.lt_or_eq with hlt | rfl
  · simp only [shiftToTargetExponent_of_lt hlt he]
    split
    · rename_i hzero
      rw [hzero, Nat.cast_zero, zero_mul]
      exact .zero
    · rename_i hpos
      exact .finite (Nat.pos_of_ne_zero hpos) hlt he hfull
  · have hvalue : ((2 ^ 53 : ℕ) : ℚ) * 2 ^ e = ((2 ^ 52 : ℕ) : ℚ) * 2 ^ (e + 1) := by
      rw [zpow_add₀ two_ne_zero]
      push_cast
      ring
    simp only [shiftToTargetExponent_carried he]
    rw [dif_neg (by decide), hvalue]
    exact .finite (by decide) (by decide) (by omega) (Or.inl le_rfl)

theorem represents_roundWithAccuracy {m : ℕ} {e : ℤ} {accuracy : Accuracy} {y : ℚ}
    (h : StandsFor (.ofMantissaAndAccuracy m accuracy) y) (hy : 0 < y)
    (he : e ≤ exponentOf (y * 2 ^ e)) :
    Represents (UnpackedFloat.roundWithAccuracy Format.binary64 .positive m e accuracy)
      (rounded (y * 2 ^ e)) := by
  have htarget : Format.binary64.targetExponent (Float.Model.totalExponent m e) =
      exponentOf (y * 2 ^ e) := by
    have hle := h.le
    have hlt := h.lt
    rw [mantissa_ofMantissaAndAccuracy] at hle hlt
    exact targetExponent_totalExponent hle hlt hy he
  have hx : 0 < y * 2 ^ e := mul_pos hy (two_zpow_pos e)
  obtain ⟨k, hk⟩ : ∃ k : ℕ, exponentOf (y * 2 ^ e) = e + k := ⟨(exponentOf (y * 2 ^ e) - e).toNat,
    by omega⟩
  have hshift : (exponentOf (y * 2 ^ e) - e).toNat = k := by omega
  have hscaled : y / 2 ^ k = y * 2 ^ e / 2 ^ exponentOf (y * 2 ^ e) := by
    rw [hk, zpow_add₀ two_ne_zero, zpow_natCast, mul_comm ((2 : ℚ) ^ e),
      mul_div_mul_right _ _ (two_zpow_pos e).ne']
  have hmantissa := (h.shiftRight k).roundedMantissa_eq
  rw [hscaled] at hmantissa
  unfold UnpackedFloat.roundWithAccuracy
  have hfirst : UnpackedFloat.shiftToTargetExponent Format.binary64 m e accuracy =
      (ExtendedMantissa.ofMantissaAndAccuracy m accuracy >>> k, exponentOf (y * 2 ^ e)) := by
    unfold UnpackedFloat.shiftToTargetExponent UnpackedFloat.shiftToExponent
    simp only [htarget, hshift]
    rw [hk]
  simp only [hfirst, hmantissa]
  apply represents_shifted (nearestEven_scaled_le _) (le_max_right _ _)
  rcases (le_max_right (Int.log 2 (y * 2 ^ e) - 52) (-1074)).lt_or_eq with hlt | heq
  · exact Or.inl (le_nearestEven_scaled hx hlt)
  · exact Or.inr heq.symm

theorem represents_round {m : ℕ} (hm : 0 < m) (e : ℤ) :
    Represents (UnpackedFloat.round Format.binary64 .positive m e) (rounded (m * 2 ^ e)) := by
  obtain ⟨k, hk⟩ : ∃ k : ℕ,
      (e - Format.binary64.targetExponent (Float.Model.totalExponent m e)).toNat = k := ⟨_, rfl⟩
  have hvalue : ((m * 2 ^ k : ℕ) : ℚ) * 2 ^ (e - k) = m * 2 ^ e := by
    rw [zpow_sub₀ two_ne_zero, zpow_natCast]
    push_cast
    field_simp
  have hexponent : e - k ≤ exponentOf (((m * 2 ^ k : ℕ) : ℚ) * 2 ^ (e - k)) := by
    rw [hvalue, exponentOf, log_mul_zpow hm le_rfl (lt_add_one _)]
    rw [targetExponent_eq, Float.Model.totalExponent] at hk
    omega
  have hpos : (0 : ℚ) < (m * 2 ^ k : ℕ) := Nat.cast_pos.mpr (by positivity)
  have hrounded := represents_roundWithAccuracy (StandsFor.exact _) hpos hexponent
  rw [hvalue] at hrounded
  unfold UnpackedFloat.round UnpackedFloat.decreaseExponent
  simp only [hk, Nat.shiftLeft_eq]
  exact hrounded

theorem represents_normalize {m : ℤ} (hm : 0 ≤ m) (e : ℤ) :
    Represents (UnpackedFloat.normalize Format.binary64 m e .positive) (rounded (m * 2 ^ e)) := by
  unfold UnpackedFloat.normalize
  rcases hm.eq_or_lt with rfl | hpos
  · rw [compare_eq_iff_eq.mpr rfl, Int.cast_zero, zero_mul, rounded_zero]
    exact .zero
  · lift m to ℕ using hm
    rw [compare_gt_iff_gt.mpr hpos]
    exact represents_round (Int.natCast_pos.mp hpos) e

/-! ## Operations -/

theorem cast_shiftLeft (m : ℕ) {e e' : ℤ} (h : e' ≤ e) :
    ((m <<< (e - e').toNat : ℕ) : ℚ) * 2 ^ e' = m * 2 ^ e := by
  obtain ⟨k, rfl⟩ := Int.le.dest h
  rw [show (e' + k - e').toNat = k by omega, Nat.shiftLeft_eq, zpow_add₀ two_ne_zero, zpow_natCast]
  push_cast
  ring

namespace Represents

variable {u v : UnpackedFloat} {x y : ℚ}

theorem add (hu : Represents u x) (hv : Represents v y) :
    Represents (UnpackedFloat.add Format.binary64 u v) (rounded (x + y)) := by
  cases hu with
  | zero =>
    rw [zero_add, hv.rounded_eq]
    cases hv with
    | zero => exact .zero
    | finite hm hlt he hfull => exact .finite hm hlt he hfull
  | @finite m e hm hlt he hfull =>
    cases hv with
    | zero =>
      rw [add_zero, (Represents.finite hm hlt he hfull).rounded_eq]
      exact .finite hm hlt he hfull
    | @finite m' e' hm' _ _ _ =>
      have hsum := represents_normalize (m := (m <<< (e - min e e').toNat : ℕ) +
        (m' <<< (e' - min e e').toNat : ℕ)) (by positivity) (min e e')
      rw [Int.cast_add, add_mul, Int.cast_natCast, Int.cast_natCast,
        cast_shiftLeft m (min_le_left e e'), cast_shiftLeft m' (min_le_right e e')] at hsum
      exact hsum

theorem sub (hu : Represents u x) (hv : Represents v y) (h : y ≤ x) :
    Represents (UnpackedFloat.sub Format.binary64 u v) (rounded (x - y)) := by
  cases hv with
  | zero =>
    rw [sub_zero, hu.rounded_eq]
    cases hu with
    | zero => exact .zero
    | finite hm hlt he hfull => exact .finite hm hlt he hfull
  | @finite m' e' hm' _ _ _ =>
    cases hu with
    | zero =>
      have hpos : (0 : ℚ) < m' * 2 ^ e' := mul_pos (Nat.cast_pos.mpr hm') (two_zpow_pos e')
      exact absurd h (not_le.mpr hpos)
    | @finite m e hm _ _ _ =>
      have hvalue : (((m <<< (e - min e e').toNat : ℕ) - (m' <<< (e' - min e e').toNat : ℕ) : ℤ) :
          ℚ) * 2 ^ min e e' = m * 2 ^ e - m' * 2 ^ e' := by
        rw [Int.cast_sub, sub_mul, Int.cast_natCast, Int.cast_natCast,
          cast_shiftLeft m (min_le_left e e'), cast_shiftLeft m' (min_le_right e e')]
      have hnonneg : (0 : ℤ) ≤ (m <<< (e - min e e').toNat : ℕ) -
          (m' <<< (e' - min e e').toNat : ℕ) := by
        have hscaled := sub_nonneg.mpr h
        rw [← hvalue] at hscaled
        exact_mod_cast nonneg_of_mul_nonneg_left hscaled (two_zpow_pos _)
      have hdifference := represents_normalize hnonneg (min e e')
      rw [hvalue] at hdifference
      exact hdifference

theorem mul (hu : Represents u x) (hv : Represents v y) :
    Represents (UnpackedFloat.mul Format.binary64 u v) (rounded (x * y)) := by
  cases hu with
  | zero =>
    rw [zero_mul, rounded_zero]
    cases hv <;> exact .zero
  | @finite m e hm hlt he hfull =>
    cases hv with
    | zero =>
      rw [mul_zero, rounded_zero]
      exact .zero
    | @finite m' e' hm' hlt' he' hfull' =>
      have hpos : 0 < m * m' := Nat.mul_pos hm hm'
      have hvalue : ((m * m' : ℕ) : ℚ) * 2 ^ (e + e') = m * 2 ^ e * (m' * 2 ^ e') := by
        rw [zpow_add₀ two_ne_zero, Nat.cast_mul]
        ring
      -- the product of the mantissas is long enough, unless both exponents are the least one
      have hexponent : e + e' ≤ exponentOf (((m * m' : ℕ) : ℚ) * 2 ^ (e + e')) := by
        rw [exponentOf, log_mul_zpow hpos le_rfl (lt_add_one _)]
        have hlong : 2 ^ 52 ≤ m ∨ 2 ^ 52 ≤ m' → 52 ≤ (m * m').log2 := by
          intro hlong
          apply (Nat.le_log2 hpos.ne').mpr
          rcases hlong with hlong | hlong
          · exact hlong.trans (Nat.le_mul_of_pos_right m hm')
          · exact hlong.trans (Nat.le_mul_of_pos_left m' hm)
        omega
      have hproduct := represents_roundWithAccuracy (StandsFor.exact _)
        (Nat.cast_pos.mpr hpos : (0 : ℚ) < (m * m' : ℕ)) hexponent
      rw [hvalue] at hproduct
      exact hproduct

theorem div (hu : Represents u x) (hv : Represents v y) (hy : 0 < y) :
    Represents (UnpackedFloat.div Format.binary64 u v) (rounded (x / y)) := by
  cases hv with
  | zero => exact absurd hy (lt_irrefl 0)
  | @finite m' e' hm' hlt' he' hfull' =>
    cases hu with
    | zero =>
      rw [zero_div, rounded_zero]
      exact .zero
    | @finite m e hm hlt he hfull =>
      obtain ⟨t, ht⟩ : ∃ t, min (e - e') (Format.binary64.targetExponent
          (Float.Model.totalExponent m e - Float.Model.totalExponent m' e')) = t := ⟨_, rfl⟩
      have hvalue : ((m <<< (e - e' - t).toNat : ℕ) / m' : ℚ) * 2 ^ t =
          m * 2 ^ e / (m' * 2 ^ e') := by
        rw [div_mul_eq_mul_div, cast_shiftLeft m (ht ▸ min_le_left _ _), zpow_sub₀ two_ne_zero]
        field_simp
      have hexponent : t ≤ exponentOf (((m <<< (e - e' - t).toNat : ℕ) / m' : ℚ) * 2 ^ t) := by
        have hlog := log_sub_le_log_div (x := (m : ℚ) * 2 ^ e)
          (mul_pos (Nat.cast_pos.mpr hm) (two_zpow_pos e)) hy
        rw [log_mul_zpow hm le_rfl (lt_add_one _), log_mul_zpow hm' le_rfl (lt_add_one _)] at hlog
        rw [targetExponent_eq, Float.Model.totalExponent, Float.Model.totalExponent] at ht
        rw [hvalue, exponentOf]
        omega
      have hpos : (0 : ℚ) < (m <<< (e - e' - t).toNat : ℕ) / m' := by
        rw [Nat.shiftLeft_eq]
        positivity
      have hquotient := represents_roundWithAccuracy (StandsFor.ofFraction _ hm') hpos hexponent
      rw [hvalue] at hquotient
      change Represents (UnpackedFloat.roundWithAccuracy Format.binary64 .positive
        (UnpackedFloat.divCore Format.binary64 m e m' e').1
        (UnpackedFloat.divCore Format.binary64 m e m' e').2.1
        (UnpackedFloat.divCore Format.binary64 m e m' e').2.2) _
      unfold UnpackedFloat.divCore
      simp only [ht]
      exact hquotient

end Represents

/-! ## Order -/

def IsPositive : UnpackedFloat → Prop
  | .infinity .positive | .zero .positive | .finite .positive .. => True
  | _ => False

theorem IsPositive.ne_notANumber {u : UnpackedFloat} (h : IsPositive u) : u ≠ .notANumber := by
  rintro rfl
  exact h

theorem IsPositive.eq_of_place? {u v : UnpackedFloat} (hu : IsPositive u) (hv : IsPositive v)
    (h : place? u = place? v) : u = v := by
  rcases u with ⟨_ | _⟩ | _ | ⟨_ | _⟩ | ⟨_ | _, m, e, _⟩ <;>
    rcases v with ⟨_ | _⟩ | _ | ⟨_ | _⟩ | ⟨_ | _, m', e', _⟩ <;>
    simp_all [IsPositive, place?]

theorem IsPositive.eq_of_le_of_le {u v : UnpackedFloat} (hu : IsPositive u) (hv : IsPositive v)
    (h : u.le v = true) (h' : v.le u = true) : u = v := by
  obtain ⟨x, y, hx, hy, hle⟩ := le_iff.mp h
  obtain ⟨y', x', hy', hx', hle'⟩ := le_iff.mp h'
  obtain rfl := Option.some.inj (hx.symm.trans hx')
  obtain rfl := Option.some.inj (hy.symm.trans hy')
  apply hu.eq_of_place? hv
  rw [hx, hy, le_antisymm hle hle']

theorem IsPositive.le_infinity {u : UnpackedFloat} (h : IsPositive u) :
    u.le (.infinity .positive) = true := by
  rcases u with ⟨_ | _⟩ | _ | ⟨_ | _⟩ | ⟨_ | _, m, e, _⟩ <;> first | exact False.elim h | rfl

namespace Represents

variable {u v : UnpackedFloat} {x y : ℚ}

/-- A lesser exponent makes a lesser value, as the greater exponent has all bits. -/
theorem lt_of_exponent_lt {m m' : ℕ} {e e' : ℤ} (hlt : m < 2 ^ 53)
    (he : -1074 ≤ e) (hfull : 2 ^ 52 ≤ m' ∨ e' = -1074) (h : e < e') :
    (m : ℚ) * 2 ^ e < m' * 2 ^ e' := by
  have hlow : 2 ^ 52 ≤ m' := hfull.resolve_right (by omega)
  calc (m : ℚ) * 2 ^ e < 2 ^ 53 * 2 ^ e := by
        gcongr
        exact_mod_cast hlt
    _ = 2 ^ 52 * 2 ^ (e + 1) := by
        rw [zpow_add₀ two_ne_zero]
        ring
    _ ≤ m' * 2 ^ e' := by
        gcongr
        · exact_mod_cast hlow
        · exact one_le_two
        · omega

theorem le_of_le (hu : Represents u x) (hv : Represents v y) (h : x ≤ y) : u.le v = true := by
  apply le_iff.mpr
  cases hu with
  | zero =>
    cases hv with
    | zero => exact ⟨_, _, rfl, rfl, le_rfl⟩
    | finite => exact ⟨_, _, rfl, rfl, Prod.Lex.toLex_le_toLex.mpr (Or.inl Int.zero_lt_one)⟩
  | @finite m e hm hlt he hfull =>
    cases hv with
    | zero =>
      have hpos : (0 : ℚ) < m * 2 ^ e := mul_pos (Nat.cast_pos.mpr hm) (two_zpow_pos e)
      exact absurd h (not_le.mpr hpos)
    | @finite m' e' hm' hlt' he' hfull' =>
      refine ⟨_, _, rfl, rfl, Prod.Lex.toLex_le_toLex.mpr (Or.inr ⟨rfl, ?_⟩)⟩
      apply Prod.Lex.toLex_le_toLex.mpr
      rcases lt_trichotomy e e' with hexp | rfl | hexp
      · exact Or.inl hexp
      · have hle : m ≤ m' := by exact_mod_cast le_of_mul_le_mul_right h (two_zpow_pos e)
        exact Or.inr ⟨rfl, Int.ofNat_le.mpr hle⟩
      · exact absurd h (not_le.mpr (lt_of_exponent_lt hlt' he' hfull hexp))

theorem isPositive (h : Represents u x) : IsPositive u := by
  cases h <;> trivial

theorem unique (h : Represents u x) (h' : Represents u y) : x = y := by
  cases h <;> cases h' <;> rfl

theorem le_iff_le (hu : Represents u x) (hv : Represents v y) : u.le v = true ↔ x ≤ y := by
  constructor
  · intro h
    by_contra hlt
    obtain rfl := hu.isPositive.eq_of_le_of_le hv.isPositive h (hv.le_of_le hu (le_of_not_ge hlt))
    exact hlt (hu.unique hv).le
  · exact hu.le_of_le hv

theorem lt_iff_lt (hu : Represents u x) (hv : Represents v y) : u.lt v = true ↔ x < y := by
  obtain ⟨p, hp⟩ := Option.ne_none_iff_exists'.mp
    (place?_eq_none_iff.not.mpr hu.isPositive.ne_notANumber)
  obtain ⟨q, hq⟩ := Option.ne_none_iff_exists'.mp
    (place?_eq_none_iff.not.mpr hv.isPositive.ne_notANumber)
  rw [← not_le, ← hv.le_iff_le hu, lt_iff, le_iff]
  simp [hp, hq]

theorem rounded_fraction (h : Represents u x) : rounded (x - ⌊x⌋₊) = x - ⌊x⌋₊ := by
  cases h with
  | zero => rw [Nat.floor_zero, Nat.cast_zero, sub_zero, rounded_zero]
  | @finite m e hm hlt he hfull =>
    rcases le_or_gt 0 e with hwhole | hpoint
    · obtain ⟨k, rfl⟩ := Int.eq_ofNat_of_zero_le hwhole
      rw [show (m : ℚ) * 2 ^ (k : ℤ) = (m * 2 ^ k : ℕ) by push_cast; rfl, Nat.floor_natCast,
        sub_self, rounded_zero]
    · obtain ⟨k, rfl⟩ : ∃ k : ℕ, e = -k := ⟨e.natAbs, by omega⟩
      have hpow : (0 : ℚ) < (2 ^ k : ℕ) := Nat.cast_pos.mpr (Nat.two_pow_pos k)
      have hscale (n : ℕ) : (n : ℚ) * 2 ^ (-k : ℤ) = n / (2 ^ k : ℕ) := by
        rw [zpow_neg, zpow_natCast, div_eq_mul_inv, Nat.cast_pow, Nat.cast_two]
      have hfraction : (m : ℚ) * 2 ^ (-k : ℤ) - ⌊(m : ℚ) * 2 ^ (-k : ℤ)⌋₊ =
          (m % 2 ^ k : ℕ) * 2 ^ (-k : ℤ) := by
        have hsplit : (m : ℚ) = (2 ^ k : ℕ) * (m / 2 ^ k : ℕ) + (m % 2 ^ k : ℕ) := by
          exact_mod_cast (Nat.div_add_mod m (2 ^ k)).symm
        rw [hscale, hscale, Nat.floor_div_eq_div, sub_eq_iff_eq_add', div_eq_iff hpow.ne', add_mul,
          div_mul_cancel₀ _ hpow.ne', mul_comm]
        exact hsplit
      rw [hfraction]
      exact rounded_eq_self ((Nat.mod_le _ _).trans_lt hlt) he

/-- A great number has nothing behind the point. -/
theorem exists_natCast (h : Represents u x) (hx : 2 ^ 52 ≤ x) : ∃ n : ℕ, x = n := by
  cases h with
  | zero => exact ⟨0, Nat.cast_zero.symm⟩
  | @finite m e hm hlt he hfull =>
    have hwhole : 0 ≤ e := by
      by_contra hneg
      have hsmall : (m : ℚ) * 2 ^ e < 2 ^ 53 * 2 ^ (-1 : ℤ) := by
        calc (m : ℚ) * 2 ^ e < 2 ^ 53 * 2 ^ e := by
              gcongr
              exact_mod_cast hlt
          _ ≤ 2 ^ 53 * 2 ^ (-1 : ℤ) := by
              gcongr
              · exact one_le_two
              · omega
      norm_num at hsmall hx
      linarith
    obtain ⟨k, rfl⟩ := Int.eq_ofNat_of_zero_le hwhole
    exact ⟨m * 2 ^ k, by push_cast; rfl⟩

/-- The whole part of a number is what is left when its exponent is made zero. -/
theorem toInt_eq (h : Represents u x) (low high : ℤ) : u.toInt low high = ⌊x⌋₊ := by
  cases h with
  | zero => rw [Nat.floor_zero]; rfl
  | @finite m e hm hlt he hfull =>
    have hvalue : ((m <<< (e - 0).toNat : ℕ) : ℚ) / 2 ^ (0 - (e - (e - 0).toNat)).toNat =
        m * 2 ^ e := by
      rcases le_or_gt 0 e with hwhole | hpoint
      · rw [show (0 - (e - (e - 0).toNat)).toNat = 0 by omega, pow_zero, div_one,
          ← cast_shiftLeft m hwhole, zpow_zero, mul_one]
      · rw [show (e - 0).toNat = 0 by omega, Nat.shiftLeft_zero,
          show 2 ^ (0 - (e - (0 : ℕ))).toNat = (2 : ℚ) ^ (-e) by
            rw [← zpow_natCast]; congr 1; omega,
          zpow_neg, div_inv_eq_mul]
    rw [← hvalue, ((StandsFor.exact _).shiftRight _).floor_eq]
    rfl

end Represents

/-! ## Packed values -/

namespace Represents

variable {u v : UnpackedFloat} {x y : ℚ}

theorem unpack_pack (h : Represents u x) :
    x < 2 ^ 1024 ∧ (Float.Model.pack u).unpack = u ∨
      2 ^ 1024 ≤ x ∧ (Float.Model.pack u).unpack = .infinity .positive := by
  cases h with
  | zero => exact Or.inl ⟨by positivity, rfl⟩
  | @finite m e hm hlt he hfull =>
    rcases le_or_gt e 971 with he' | he'
    · refine Or.inl ⟨?_, unpack_pack_finite .positive hm hlt he he' hfull⟩
      calc (m : ℚ) * 2 ^ e < 2 ^ 53 * 2 ^ e := by
            gcongr
            exact_mod_cast hlt
        _ ≤ 2 ^ 53 * 2 ^ (971 : ℤ) := by
            gcongr
            exact one_le_two
        _ = 2 ^ 1024 := by
            rw [show (971 : ℤ) = (971 : ℕ) from rfl, zpow_natCast, ← pow_add]
    · refine Or.inr ⟨?_, unpack_pack_of_lt .positive hm he'⟩
      have hlow : 2 ^ 52 ≤ m := hfull.resolve_right (by omega)
      calc (2 : ℚ) ^ 1024 = 2 ^ 52 * 2 ^ (972 : ℤ) := by
            rw [show (972 : ℤ) = (972 : ℕ) from rfl, zpow_natCast, ← pow_add]
        _ ≤ (m : ℚ) * 2 ^ e := by
            gcongr
            · exact_mod_cast hlow
            · exact one_le_two
            · omega

theorem isPositive_unpack_pack (h : Represents u x) : IsPositive (Float.Model.pack u).unpack := by
  rcases h.unpack_pack with ⟨_, heq⟩ | ⟨_, heq⟩ <;> rw [heq]
  · exact h.isPositive
  · trivial

theorem pack_mono (hu : Represents u x) (hv : Represents v y) (h : x ≤ y) :
    (Float.Model.pack u).unpack.le (Float.Model.pack v).unpack = true := by
  rcases hv.unpack_pack with ⟨hsmall, heq⟩ | ⟨_, heq⟩
  · obtain ⟨_, heq'⟩ := hu.unpack_pack.resolve_right fun hlarge =>
      (h.trans_lt hsmall).not_ge hlarge.1
    rw [heq, heq']
    exact (hu.le_iff_le hv).mpr h
  · rw [heq]
    exact hu.isPositive_unpack_pack.le_infinity

end Represents

/-- A number without a negative sign is infinite or has a value. -/
theorem IsPositive.cases {f : Float.Model} (h : IsPositive f.unpack) :
    f.unpack = .infinity .positive ∨ ∃ x < 2 ^ 1024, Represents f.unpack x := by
  cases hunpack : f.unpack with
  | infinity s => cases s <;> simp_all [IsPositive]
  | notANumber => exact absurd hunpack h.ne_notANumber
  | zero s =>
    cases s
    · rw [hunpack] at h
      exact False.elim h
    · exact Or.inr ⟨0, by positivity, .zero⟩
  | finite s m e hm =>
    cases s
    · rw [hunpack] at h
      exact False.elim h
    · obtain ⟨hlt, he, he', hfull⟩ := bounds_of_unpack hunpack
      have hrep : Represents (.finite .positive m e hm) (m * 2 ^ e) := .finite hm hlt he hfull
      refine Or.inr ⟨_, ?_, hrep⟩
      rcases hrep.unpack_pack with ⟨hsmall, _⟩ | ⟨_, hinfinite⟩
      · exact hsmall
      · rw [unpack_pack_finite .positive hm hlt he he' hfull] at hinfinite
        exact absurd hinfinite (by simp)

end Unpacked

end MigrationAudit
