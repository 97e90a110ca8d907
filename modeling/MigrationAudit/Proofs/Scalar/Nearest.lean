import MigrationAudit.Proofs.Scalar.Packing

/-!
# The nearest floating-point number

A positive value lies between two powers of two, and its exponent is chosen so that a mantissa of 53
bits fits, but never below that of the subnormal numbers. The value is rounded to a multiple of that
power of two; of two that are equally near it is the one with the even mantissa. Said of rational
numbers, this is a monotone function, and what the bits behind a mantissa record is enough for it.
-/

namespace MigrationAudit

open Float.Model (Format UnpackedFloat)
open Float.Model.UnpackedFloat (Accuracy ExtendedMantissa)

namespace Unpacked

/-! ## Whole numbers -/

/-- The whole number nearest to a value; the even one of two that are equally near. -/
def nearestEven (x : ℚ) : ℕ :=
  let whole := ⌊x⌋₊
  if x - whole < 1 / 2 then whole
  else if 1 / 2 < x - whole then whole + 1
  else whole + whole % 2

theorem nearestEven_bounds (x : ℚ) : ⌊x⌋₊ ≤ nearestEven x ∧ nearestEven x ≤ ⌊x⌋₊ + 1 := by
  unfold nearestEven
  dsimp only
  split_ifs <;> omega

theorem nearestEven_natCast (n : ℕ) : nearestEven n = n := by
  simp [nearestEven]

theorem nearestEven_mono {x y : ℚ} (h : x ≤ y) : nearestEven x ≤ nearestEven y := by
  rcases (Nat.floor_mono h).lt_or_eq with hlt | heq
  · have hx := (nearestEven_bounds x).2
    have hy := (nearestEven_bounds y).1
    omega
  · -- between the same two whole numbers, only what is behind the point decides
    unfold nearestEven
    dsimp only
    rw [heq]
    split_ifs <;> first | omega | (exfalso; linarith)

/-! ## Extended mantissas -/

theorem mantissa_ofMantissaAndAccuracy (m : ℕ) (accuracy : Accuracy) :
    (ExtendedMantissa.ofMantissaAndAccuracy m accuracy).mantissa = m := by
  rcases accuracy with _ | ⟨_ | _ | _⟩ <;> rfl

/-- The value of which an extended mantissa is the whole part, together with what the two bits behind
it record. -/
structure StandsFor (em : ExtendedMantissa) (x : ℚ) : Prop where
  le : em.mantissa ≤ x
  lt : x < em.mantissa + 1
  roundBit_iff : em.roundBit = true ↔ em.mantissa + 1 / 2 ≤ x
  stickyBit_iff : em.stickyBit = true ↔ x ≠ em.mantissa ∧ x ≠ em.mantissa + 1 / 2

namespace StandsFor

variable {em : ExtendedMantissa} {x : ℚ}

theorem floor_eq (h : StandsFor em x) : ⌊x⌋₊ = em.mantissa :=
  (Nat.floor_eq_iff ((Nat.cast_nonneg _).trans h.le)).mpr ⟨h.le, h.lt⟩

theorem roundedMantissa_eq (h : StandsFor em x) : em.roundedMantissa = nearestEven x := by
  have hround := h.roundBit_iff
  have hsticky := h.stickyBit_iff
  unfold nearestEven
  rw [h.floor_eq]
  obtain ⟨m, _ | _, _ | _⟩ := em <;>
    simp only [ExtendedMantissa.roundedMantissa, ExtendedMantissa.accuracy,
      Accuracy.roundToNearestEven, Bool.false_eq_true, false_iff, true_iff, not_le, not_and_or,
      not_not] at hround hsticky ⊢
  · rw [if_pos (by linarith)]
  · rw [if_pos (by linarith)]
  · -- neither bit behind the round bit is set, so the value is half way
    have hhalf : x = m + 1 / 2 := hsticky.resolve_left (by linarith)
    rw [if_neg (by linarith), if_neg (by linarith)]
  · have hmore : (m : ℚ) + 1 / 2 < x := lt_of_le_of_ne hround hsticky.2.symm
    rw [if_neg (by linarith), if_pos (by linarith)]

theorem exact (m : ℕ) : StandsFor (.ofMantissaAndAccuracy m .exact) m := by
  constructor <;> simp [ExtendedMantissa.ofMantissaAndAccuracy]

/-- One of the two bits is set whenever anything stands behind the mantissa. -/
theorem anyBit_iff (h : StandsFor em x) :
    (em.roundBit || em.stickyBit) = true ↔ x ≠ em.mantissa := by
  rw [Bool.or_eq_true, h.roundBit_iff, h.stickyBit_iff]
  constructor
  · rintro (hhalf | ⟨hne, _⟩) heq
    · linarith
    · exact hne heq
  · intro hne
    by_cases hhalf : x = em.mantissa + 1 / 2
    · exact Or.inl hhalf.ge
    · exact Or.inr ⟨hne, hhalf⟩

theorem shiftRightOne (h : StandsFor em x) : StandsFor em.shiftRightOne (x / 2) := by
  have hlow := h.le
  have hhigh := h.lt
  have hsplit : (em.mantissa : ℚ) = 2 * (em.mantissa / 2 : ℕ) + (em.mantissa % 2 : ℕ) := by
    exact_mod_cast (Nat.div_add_mod em.mantissa 2).symm
  have hbit := Nat.mod_two_eq_zero_or_one em.mantissa
  -- the last bit of the mantissa is the round bit of the half, all other bits are sticky there
  change StandsFor ⟨em.mantissa / 2, em.mantissa % 2 != 0, em.roundBit || em.stickyBit⟩ (x / 2)
  constructor <;> dsimp only
  case le =>
    have hbit' : (0 : ℚ) ≤ (em.mantissa % 2 : ℕ) := Nat.cast_nonneg _
    linarith
  case lt =>
    have hbit' : ((em.mantissa % 2 : ℕ) : ℚ) ≤ 1 := by exact_mod_cast (by omega)
    linarith
  case roundBit_iff =>
    rcases hbit with hbit | hbit <;> rw [hbit] at hsplit ⊢ <;> push_cast at hsplit
    · simp only [bne_self_eq_false, Bool.false_eq_true, false_iff, not_le]
      linarith
    · simp only [bne_iff_ne, ne_eq, one_ne_zero, not_false_eq_true, true_iff]
      linarith
  case stickyBit_iff =>
    rw [h.anyBit_iff, ← not_or, not_iff_not]
    rcases hbit with hbit | hbit <;> rw [hbit] at hsplit <;> push_cast at hsplit
    · constructor
      · exact fun heq => Or.inl (by linarith)
      · rintro (heq | heq) <;> linarith
    · constructor
      · exact fun heq => Or.inr (by linarith)
      · rintro (heq | heq) <;> linarith

theorem shiftRight (h : StandsFor em x) (n : ℕ) : StandsFor (em >>> n) (x / 2 ^ n) := by
  change StandsFor (n.repeat ExtendedMantissa.shiftRightOne em) _
  induction n with
  | zero => simpa [Nat.repeat] using h
  | succ n ih =>
    rw [Nat.repeat, pow_succ, ← div_div]
    exact ih.shiftRightOne

/-- What is known of an inexact value is on which side of the middle it lies. -/
theorem inexact (m : ℕ) {fraction : ℚ} (hlow : 0 < fraction) (hhigh : fraction < 1) :
    StandsFor (.ofMantissaAndAccuracy m (.inexact (compare fraction (1 / 2)))) (m + fraction) := by
  rcases lt_trichotomy fraction (1 / 2) with hhalf | rfl | hhalf
  · rw [compare_lt_iff_lt.mpr hhalf]
    constructor <;> simp only [ExtendedMantissa.ofMantissaAndAccuracy]
    case le => linarith
    case lt => linarith
    case roundBit_iff => simpa using hhalf
    case stickyBit_iff =>
      refine iff_of_true trivial ⟨fun heq => ?_, fun heq => ?_⟩ <;> linarith
  · rw [compare_eq_iff_eq.mpr rfl]
    constructor <;> simp [ExtendedMantissa.ofMantissaAndAccuracy]
    norm_num
  · rw [compare_gt_iff_gt.mpr hhalf]
    constructor <;> simp only [ExtendedMantissa.ofMantissaAndAccuracy]
    case le => linarith
    case lt => linarith
    case roundBit_iff => simpa using hhalf.le
    case stickyBit_iff =>
      refine iff_of_true trivial ⟨fun heq => ?_, fun heq => ?_⟩ <;> linarith

theorem compare_fraction (r : ℕ) {d : ℕ} (hd : 0 < d) :
    compare (r / d : ℚ) (1 / 2) = compare (2 * r) d := by
  have hd' : (0 : ℚ) < d := Nat.cast_pos.mpr hd
  rcases lt_trichotomy (2 * r) d with h | h | h
  · rw [compare_lt_iff_lt.mpr h, compare_lt_iff_lt, div_lt_div_iff₀ hd' two_pos]
    exact_mod_cast (by omega : r * 2 < 1 * d)
  · rw [compare_eq_iff_eq.mpr h, compare_eq_iff_eq, div_eq_div_iff hd'.ne' two_ne_zero]
    exact_mod_cast (by omega : r * 2 = 1 * d)
  · rw [compare_gt_iff_gt.mpr h, compare_gt_iff_gt, div_lt_div_iff₀ two_pos hd']
    exact_mod_cast (by omega : 1 * d < r * 2)

/-- The quotient of two natural numbers, of which the remainder is known. -/
theorem ofFraction (n : ℕ) {d : ℕ} (hd : 0 < d) :
    StandsFor (.ofMantissaAndAccuracy (n / d) (UnpackedFloat.accuracyOfFraction (n % d) d))
      (n / d : ℚ) := by
  have hd' : (0 : ℚ) < d := Nat.cast_pos.mpr hd
  have hremainder : n % d < d := Nat.mod_lt n hd
  have hquotient : (n / d : ℚ) = (n / d : ℕ) + (n % d : ℕ) / d := by
    have hsplit : (n : ℚ) = d * (n / d : ℕ) + (n % d : ℕ) := by
      exact_mod_cast (Nat.div_add_mod n d).symm
    rw [div_eq_iff hd'.ne', add_mul, div_mul_cancel₀ _ hd'.ne', mul_comm]
    exact hsplit
  rw [hquotient]
  unfold UnpackedFloat.accuracyOfFraction
  split_ifs with hzero
  · rw [hzero, Nat.cast_zero, zero_div, add_zero]
    exact StandsFor.exact _
  · rw [← compare_fraction _ hd]
    apply inexact
    · exact div_pos (Nat.cast_pos.mpr (Nat.pos_of_ne_zero hzero)) hd'
    · exact (div_lt_one hd').mpr (Nat.cast_lt.mpr hremainder)

end StandsFor

/-! ## Values -/

/-- The exponent of the numbers among which a value is rounded. -/
def exponentOf (x : ℚ) : ℤ := max (Int.log 2 x - 52) (-1074)

/-- The value that is nearest among the numbers of its exponent. -/
def rounded (x : ℚ) : ℚ := nearestEven (x / 2 ^ exponentOf x) * 2 ^ exponentOf x

theorem two_zpow_pos (e : ℤ) : (0 : ℚ) < 2 ^ e := zpow_pos two_pos e

theorem rounded_nonneg (x : ℚ) : 0 ≤ rounded x :=
  mul_nonneg (Nat.cast_nonneg _) (two_zpow_pos _).le

theorem rounded_zero : rounded 0 = 0 := by
  unfold rounded
  rw [zero_div, show nearestEven 0 = 0 from nearestEven_natCast 0, Nat.cast_zero, zero_mul]

theorem exponentOf_mono {x y : ℚ} (hx : 0 < x) (h : x ≤ y) : exponentOf x ≤ exponentOf y :=
  max_le_max_right _ (sub_le_sub_right (Int.log_mono_right hx h) 52)

/-- The power of two below a value can be read off its whole part. -/
theorem log_mul_zpow {m : ℕ} (hm : 0 < m) {y : ℚ} (hle : m ≤ y) (hlt : y < m + 1) (e : ℤ) :
    Int.log 2 (y * 2 ^ e) = m.log2 + e := by
  have hy : 0 < y * 2 ^ e := mul_pos ((Nat.cast_pos.mpr hm).trans_le hle) (two_zpow_pos e)
  apply le_antisymm
  · apply Int.lt_add_one_iff.mp
    apply (Int.lt_zpow_iff_log_lt (by decide) hy).mp
    rw [add_right_comm, Nat.cast_two, zpow_add₀ two_ne_zero]
    apply mul_lt_mul_of_pos_right _ (two_zpow_pos e)
    have hceil : ((m + 1 : ℕ) : ℚ) ≤ ((2 ^ (m.log2 + 1) : ℕ) : ℚ) :=
      Nat.cast_le.mpr Nat.lt_log2_self
    push_cast at hceil
    exact_mod_cast hlt.trans_le hceil
  · apply (Int.zpow_le_iff_le_log (by decide) hy).mp
    rw [Nat.cast_two, zpow_add₀ two_ne_zero]
    apply mul_le_mul_of_nonneg_right _ (two_zpow_pos e).le
    have hfloor : ((2 ^ m.log2 : ℕ) : ℚ) ≤ m := Nat.cast_le.mpr (Nat.log2_self_le hm.ne')
    push_cast at hfloor
    exact_mod_cast hfloor.trans hle

theorem log_sub_le_log_div {x y : ℚ} (hx : 0 < x) (hy : 0 < y) :
    Int.log 2 x - Int.log 2 y - 1 ≤ Int.log 2 (x / y) := by
  apply (Int.zpow_le_iff_le_log (by decide) (div_pos hx hy)).mp
  rw [Nat.cast_two, le_div_iff₀ hy]
  calc (2 : ℚ) ^ (Int.log 2 x - Int.log 2 y - 1) * y
      ≤ 2 ^ (Int.log 2 x - Int.log 2 y - 1) * 2 ^ (Int.log 2 y + 1) := by
        gcongr
        exact (Int.lt_zpow_succ_log_self (by decide) y).le
    _ = ((2 : ℕ) : ℚ) ^ Int.log 2 x := by
        rw [← zpow_add₀ two_ne_zero, Nat.cast_two]
        congr 1
        omega
    _ ≤ x := Int.zpow_log_le_self (by decide) hx

theorem lt_of_exponentOf {x : ℚ} : x < 2 ^ (exponentOf x + 53) := by
  calc x < ((2 : ℕ) : ℚ) ^ (Int.log 2 x + 1) := Int.lt_zpow_succ_log_self (by decide) x
    _ ≤ 2 ^ (exponentOf x + 53) := by
        apply zpow_le_zpow_right₀ one_le_two
        have hle : Int.log 2 x - 52 ≤ exponentOf x := le_max_left _ _
        omega

theorem le_of_exponentOf {x : ℚ} (hx : 0 < x) (h : -1074 < exponentOf x) :
    2 ^ (exponentOf x + 52) ≤ x := by
  have heq : exponentOf x = Int.log 2 x - 52 := by
    unfold exponentOf at h ⊢
    omega
  rw [heq, sub_add_cancel]
  exact Int.zpow_log_le_self (by decide) hx

theorem nearestEven_scaled_le (x : ℚ) : nearestEven (x / 2 ^ exponentOf x) ≤ 2 ^ 53 := by
  have hscaled : x / 2 ^ exponentOf x ≤ ((2 ^ 53 : ℕ) : ℚ) := by
    rw [div_le_iff₀ (two_zpow_pos _)]
    calc x ≤ 2 ^ (exponentOf x + 53) := lt_of_exponentOf.le
      _ = ((2 ^ 53 : ℕ) : ℚ) * 2 ^ exponentOf x := by
          rw [zpow_add₀ two_ne_zero, mul_comm]
          norm_num
  calc nearestEven (x / 2 ^ exponentOf x) ≤ nearestEven ((2 ^ 53 : ℕ) : ℚ) :=
        nearestEven_mono hscaled
    _ = 2 ^ 53 := nearestEven_natCast _

theorem le_nearestEven_scaled {x : ℚ} (hx : 0 < x) (h : -1074 < exponentOf x) :
    2 ^ 52 ≤ nearestEven (x / 2 ^ exponentOf x) := by
  have hscaled : ((2 ^ 52 : ℕ) : ℚ) ≤ x / 2 ^ exponentOf x := by
    rw [le_div_iff₀ (two_zpow_pos _)]
    calc ((2 ^ 52 : ℕ) : ℚ) * 2 ^ exponentOf x = 2 ^ (exponentOf x + 52) := by
          rw [zpow_add₀ two_ne_zero, mul_comm]
          norm_num
      _ ≤ x := le_of_exponentOf hx h
  calc 2 ^ 52 = nearestEven ((2 ^ 52 : ℕ) : ℚ) := (nearestEven_natCast _).symm
    _ ≤ nearestEven (x / 2 ^ exponentOf x) := nearestEven_mono hscaled

/-- A value with no more than 53 bits stays as it is. -/
theorem rounded_eq_self {m : ℕ} {e : ℤ} (hm : m < 2 ^ 53) (he : -1074 ≤ e) :
    rounded (m * 2 ^ e) = m * 2 ^ e := by
  rcases Nat.eq_zero_or_pos m with rfl | hpos
  · rw [Nat.cast_zero, zero_mul, rounded_zero]
  have hlog : m.log2 < 53 := (Nat.log2_lt hpos.ne').mpr hm
  have hle : exponentOf (m * 2 ^ e) ≤ e := by
    rw [exponentOf, log_mul_zpow hpos le_rfl (lt_add_one _)]
    omega
  obtain ⟨k, hk⟩ := Int.le.dest hle
  have hwhole : (m : ℚ) * 2 ^ e / 2 ^ exponentOf (m * 2 ^ e) = (m * 2 ^ k : ℕ) := by
    rw [div_eq_iff (two_zpow_pos _).ne']
    nth_rewrite 1 [← hk]
    rw [zpow_add₀ two_ne_zero, zpow_natCast]
    push_cast
    ring
  rw [rounded, hwhole, nearestEven_natCast, ← hwhole, div_mul_cancel₀ _ (two_zpow_pos _).ne']

theorem rounded_natCast {n : ℕ} (h : n < 2 ^ 53) : rounded n = n := by
  have hself := rounded_eq_self h (show -1074 ≤ (0 : ℤ) by decide)
  rwa [zpow_zero, mul_one] at hself

/-- A greater value is not rounded to a lesser one. -/
theorem rounded_mono {x y : ℚ} (hx : 0 ≤ x) (h : x ≤ y) : rounded x ≤ rounded y := by
  rcases hx.eq_or_lt with rfl | hx
  · rw [rounded_zero]
    exact rounded_nonneg y
  unfold rounded
  rcases (exponentOf_mono hx h).lt_or_eq with hlt | heq
  · -- a power of two lies between the values, and neither is rounded past it
    have hy : (-1074 : ℤ) < exponentOf y := (le_max_right _ _ : -1074 ≤ exponentOf x).trans_lt hlt
    calc (nearestEven (x / 2 ^ exponentOf x) : ℚ) * 2 ^ exponentOf x
        ≤ 2 ^ 53 * 2 ^ exponentOf x := by
          gcongr
          exact_mod_cast nearestEven_scaled_le x
      _ = 2 ^ 52 * 2 ^ (exponentOf x + 1) := by
          rw [zpow_add₀ two_ne_zero]
          ring
      _ ≤ 2 ^ 52 * 2 ^ exponentOf y := by
          gcongr
          · exact one_le_two
          · omega
      _ ≤ nearestEven (y / 2 ^ exponentOf y) * 2 ^ exponentOf y := by
          gcongr
          exact_mod_cast le_nearestEven_scaled (hx.trans_le h) hy
  · rw [heq]
    gcongr
    apply nearestEven_mono
    gcongr

end Unpacked

end MigrationAudit
