import MigrationAudit.Proofs.Scalar.Values

/-!
# Scalars reckoned from counts

Scores and percentages are reckoned from counts by sums, by products and quotients with positive
counts, and by rounding. None of this leads below zero, and all of it keeps the order, for rational
numbers as well as for floating-point numbers, where each step rounds.
-/

namespace MigrationAudit

open Unpacked

namespace Scalar

/-- A scalar that is reckoned from counts. -/
inductive IsCounted {α : Type} [Scalar α] : α → Prop
  | ofNat (n : ℕ) : IsCounted (ofNat n)
  | add {a b : α} : IsCounted a → IsCounted b → IsCounted (a + b)
  | mul_ofNat {a : α} {n : ℕ} : IsCounted a → 0 < n → IsCounted (a * ofNat n)
  | ofNat_mul {a : α} {n : ℕ} : 0 < n → IsCounted a → IsCounted (ofNat n * a)
  | div_ofNat {a : α} {n : ℕ} : IsCounted a → 0 < n → IsCounted (a / ofNat n)
  | round {a : α} : IsCounted a → IsCounted (round a)

end Scalar

open Scalar in
/-- Scalars whose operations keep the order of what is reckoned from counts. -/
class MonotoneScalar (α : Type) [Scalar α] : Prop extends OrderedScalar α where
  zero_le {a : α} : IsCounted a → ofNat 0 ≤ a
  le_refl {a : α} : IsCounted a → a ≤ a
  le_antisymm {a b : α} : IsCounted a → IsCounted b → a ≤ b → b ≤ a → a = b
  ofNat_le {m n : ℕ} : m ≤ n → (ofNat m : α) ≤ ofNat n
  ratio_self {n : ℕ} : 0 < n → (ratio n n : α) = ofNat 1
  mul_one {n : ℕ} : (ofNat n * ofNat 1 : α) = ofNat n
  add_le_add {a b c d : α} : IsCounted a → IsCounted b → IsCounted c → IsCounted d →
    a ≤ b → c ≤ d → a + c ≤ b + d
  mul_le_mul {a b : α} {n : ℕ} : IsCounted a → IsCounted b → 0 < n → a ≤ b →
    a * ofNat n ≤ b * ofNat n ∧ ofNat n * a ≤ ofNat n * b
  div_le_div {a b : α} {n : ℕ} : IsCounted a → IsCounted b → 0 < n → a ≤ b →
    a / ofNat n ≤ b / ofNat n
  round_le_round {a b : α} : IsCounted a → IsCounted b → a ≤ b → round a ≤ round b

namespace Scalar

/-! ## What is reckoned from counts -/

section Counted

variable {α : Type} [Scalar α] {a b : α}

theorem IsCounted.ratio (m : ℕ) {n : ℕ} (h : 0 < n) : IsCounted (Scalar.ratio m n : α) :=
  (IsCounted.ofNat m).div_ofNat h

theorem IsCounted.roundTo (ha : IsCounted a) {parts : ℕ} (h : 0 < parts) :
    IsCounted (Scalar.roundTo parts a) :=
  (ha.mul_ofNat h).round.div_ofNat h

theorem IsCounted.clamp (ha : IsCounted a) (m n : ℕ) :
    IsCounted (Scalar.clamp (Scalar.ofNat m) (Scalar.ofNat n) a) := by
  unfold Scalar.clamp
  split_ifs
  · exact IsCounted.ofNat m
  · exact IsCounted.ofNat n
  · exact ha

theorem IsCounted.min (ha : IsCounted a) (hb : IsCounted b) : IsCounted (Scalar.min a b) := by
  unfold Scalar.min
  split_ifs
  · exact ha
  · exact hb

theorem isCounted_foldl_add {l : List α} (ha : IsCounted a) (hl : ∀ b ∈ l, IsCounted b) :
    IsCounted (l.foldl (· + ·) a) := by
  induction l generalizing a with
  | nil => exact ha
  | cons b l ih =>
    obtain ⟨hb, hrest⟩ := List.forall_mem_cons.mp hl
    exact ih (ha.add hb) hrest

theorem isCounted_sum {l : List α} (hl : ∀ b ∈ l, IsCounted b) : IsCounted (Scalar.sum l) :=
  isCounted_foldl_add (IsCounted.ofNat 0) hl

variable [MonotoneScalar α]

theorem ratio_le_one {m n : ℕ} (hn : 0 < n) (h : m ≤ n) : (Scalar.ratio m n : α) ≤ ofNat 1 := by
  rw [← MonotoneScalar.ratio_self hn]
  exact MonotoneScalar.div_le_div (.ofNat m) (.ofNat n) hn (MonotoneScalar.ofNat_le h)

theorem roundTo_le_roundTo {parts : ℕ} (hparts : 0 < parts) (ha : IsCounted a) (hb : IsCounted b)
    (h : a ≤ b) : Scalar.roundTo parts a ≤ Scalar.roundTo parts b := by
  have hscaled := (MonotoneScalar.mul_le_mul ha hb hparts h).1
  have hround := MonotoneScalar.round_le_round (ha.mul_ofNat hparts) (hb.mul_ofNat hparts) hscaled
  exact MonotoneScalar.div_le_div (ha.mul_ofNat hparts).round (hb.mul_ofNat hparts).round hparts
    hround

theorem min_le_min_left {c : α} (hc : IsCounted c) (h : a ≤ b) : Scalar.min a c ≤ Scalar.min b c := by
  unfold Scalar.min
  split_ifs with hac hbc hbc
  · exact h
  · exact hac
  · exact absurd (OrderedScalar.le_trans h hbc) hac
  · exact MonotoneScalar.le_refl hc

theorem foldl_add_le_foldl_add {l l' : List α} (h : List.Forall₂ (· ≤ ·) l l')
    (hl : ∀ c ∈ l, IsCounted c) (hl' : ∀ c ∈ l', IsCounted c) (ha : IsCounted a)
    (hb : IsCounted b) (hab : a ≤ b) : l.foldl (· + ·) a ≤ l'.foldl (· + ·) b := by
  induction h generalizing a b with
  | nil => exact hab
  | cons hle _ ih =>
    obtain ⟨hc, hrest⟩ := List.forall_mem_cons.mp hl
    obtain ⟨hc', hrest'⟩ := List.forall_mem_cons.mp hl'
    have hstep := MonotoneScalar.add_le_add ha hb hc hc' hab hle
    exact ih hrest hrest' (ha.add hc) (hb.add hc') hstep

theorem sum_le_sum {l l' : List α} (h : List.Forall₂ (· ≤ ·) l l') (hl : ∀ c ∈ l, IsCounted c)
    (hl' : ∀ c ∈ l', IsCounted c) : Scalar.sum l ≤ Scalar.sum l' :=
  foldl_add_le_foldl_add h hl hl' (.ofNat 0) (.ofNat 0) (MonotoneScalar.le_refl (.ofNat 0))

theorem le_of_not_lt (ha : IsCounted a) (hb : IsCounted b) (h : ¬ a < b) : b ≤ a :=
  OrderedScalar.le_of_not_lt (MonotoneScalar.le_refl ha) (MonotoneScalar.le_refl hb) h

theorem clamp_bounds {m n : ℕ} (hmn : m ≤ n) (ha : IsCounted a) :
    ofNat m ≤ Scalar.clamp (ofNat m) (ofNat n) a ∧ Scalar.clamp (ofNat m) (ofNat n) a ≤ ofNat n := by
  have hm : IsCounted (ofNat m : α) := .ofNat m
  have hn : IsCounted (ofNat n : α) := .ofNat n
  unfold Scalar.clamp
  split_ifs with hlow hhigh
  · exact ⟨MonotoneScalar.le_refl hm, MonotoneScalar.ofNat_le hmn⟩
  · exact ⟨MonotoneScalar.ofNat_le hmn, MonotoneScalar.le_refl hn⟩
  · exact ⟨le_of_not_lt ha hm hlow, le_of_not_lt hn ha hhigh⟩

theorem clamp_le_clamp {m n : ℕ} (hmn : m ≤ n) (ha : IsCounted a) (hb : IsCounted b) (h : a ≤ b) :
    Scalar.clamp (ofNat m) (ofNat n) a ≤ Scalar.clamp (ofNat m) (ofNat n) b := by
  by_cases hlow : a < ofNat m
  · rw [show Scalar.clamp (ofNat m) (ofNat n) a = ofNat m from if_pos hlow]
    exact (clamp_bounds hmn hb).1
  · have hcut : Scalar.clamp (ofNat m) (ofNat n) a ≤ a := by
      unfold Scalar.clamp
      rw [if_neg hlow]
      split_ifs with hhigh
      · exact OrderedScalar.le_of_lt hhigh
      · exact MonotoneScalar.le_refl ha
    have hle : Scalar.clamp (ofNat m) (ofNat n) a ≤ b := OrderedScalar.le_trans hcut h
    have hbound := (clamp_bounds hmn ha).2
    rw [Scalar.clamp.eq_def _ _ b]
    split_ifs with hlow'
    · exact OrderedScalar.le_trans hle (OrderedScalar.le_of_lt hlow')
    · exact hbound
    · exact hle

end Counted

end Scalar

/-! ## Rational numbers -/

theorem roundHalfAway_nonneg {a : Rat} (h : 0 ≤ a) : 0 ≤ roundHalfAway a := by
  have hzero : roundHalfAway 0 = 0 := roundHalfAway_intCast 0
  rw [← hzero]
  exact roundHalfAway_mono h

theorem Scalar.IsCounted.nonneg {a : Rat} (h : IsCounted a) : 0 ≤ a := by
  induction h with
  | ofNat n => exact Nat.cast_nonneg n
  | add _ _ iha ihb => exact add_nonneg iha ihb
  | mul_ofNat _ _ ih => exact mul_nonneg ih (Nat.cast_nonneg _)
  | ofNat_mul _ _ ih => exact mul_nonneg (Nat.cast_nonneg _) ih
  | div_ofNat _ _ ih => exact div_nonneg ih (Nat.cast_nonneg _)
  | round _ ih => exact Int.cast_nonneg (roundHalfAway_nonneg ih)

instance : MonotoneScalar Rat where
  zero_le := Scalar.IsCounted.nonneg
  le_refl := fun _ => le_rfl
  le_antisymm := fun _ _ => le_antisymm
  ofNat_le := fun h => Nat.cast_le.mpr h
  ratio_self := fun h => (div_self (Nat.cast_ne_zero.mpr h.ne')).trans Nat.cast_one.symm
  mul_one := (congrArg _ Nat.cast_one).trans (Rat.mul_one _)
  add_le_add := fun _ _ _ _ => add_le_add
  mul_le_mul := fun _ _ _ h => ⟨mul_le_mul_of_nonneg_right h (Nat.cast_nonneg _),
    mul_le_mul_of_nonneg_left h (Nat.cast_nonneg _)⟩
  div_le_div := fun _ _ _ h => div_le_div_of_nonneg_right h (Nat.cast_nonneg _)
  round_le_round := fun _ _ h => Int.cast_le.mpr (roundHalfAway_mono h)

/-! ## Floating-point numbers -/

/-- An operation that keeps infinity and rounds a monotone function of the value. -/
structure RoundsMonotone (f : Float → Float) (g : ℚ → ℚ) : Prop where
  infinity_eq : f infinity = infinity
  isRounded : ∀ {a x}, HasValue a x → IsRounded (f a) (g x)
  nonneg : ∀ {x}, 0 ≤ x → 0 ≤ g x
  mono : ∀ {x y}, x ≤ y → g x ≤ g y

namespace RoundsMonotone

variable {f : Float → Float} {g : ℚ → ℚ} {a b : Float}

theorem isUnsigned (h : RoundsMonotone f g) (ha : IsUnsigned a) : IsUnsigned (f a) := by
  rcases ha.cases with rfl | ⟨x, _, hx⟩
  · rw [h.infinity_eq]
    exact isUnsigned_infinity
  · exact (h.isRounded hx).isUnsigned

theorem le_of_le (h : RoundsMonotone f g) (ha : IsUnsigned a) (hb : IsUnsigned b) (hab : a ≤ b) :
    f a ≤ f b := by
  rcases hb.cases with rfl | ⟨y, _, hy⟩
  · rw [h.infinity_eq]
    exact (h.isUnsigned ha).le_infinity
  · rcases ha.cases with rfl | ⟨x, _, hx⟩
    · rw [hb.eq_of_le_of_le ha hb.le_infinity hab]
      exact (h.isUnsigned ha).isNumber
    · exact (h.isRounded hx).le (h.isRounded hy) (h.nonneg (Represents.nonneg hx))
        (h.mono ((hx.le_iff hy).mp hab))

end RoundsMonotone

section Operations

variable {a b : Float} {n : ℕ}

theorem roundsMonotone_add_right {x : ℚ} (h : HasValue a x) :
    RoundsMonotone (· + a) (· + x) where
  infinity_eq := infinity_add h.isUnsigned
  isRounded := fun hb => hb.add h
  nonneg := fun hy => add_nonneg hy (Represents.nonneg h)
  mono := fun hle => add_le_add_left hle x

theorem roundsMonotone_add_left {x : ℚ} (h : HasValue a x) :
    RoundsMonotone (a + ·) (x + ·) where
  infinity_eq := add_infinity h.isUnsigned
  isRounded := fun hb => h.add hb
  nonneg := fun hy => add_nonneg (Represents.nonneg h) hy
  mono := fun hle => add_le_add_right hle x

theorem exists_roundsMonotone_mul_ofNat (hn : 0 < n) :
    ∃ g, RoundsMonotone (· * Scalar.ofNat n) g := by
  obtain ⟨x, hx, hpos⟩ := exists_hasValue_ofNat n
  exact ⟨(· * x), infinity_mul hx (hpos hn), fun hb => hb.mul hx,
    fun hy => mul_nonneg hy (hpos hn).le, fun hle => mul_le_mul_of_nonneg_right hle (hpos hn).le⟩

theorem exists_roundsMonotone_ofNat_mul (hn : 0 < n) :
    ∃ g, RoundsMonotone (Scalar.ofNat n * ·) g := by
  obtain ⟨x, hx, hpos⟩ := exists_hasValue_ofNat n
  exact ⟨(x * ·), mul_infinity hx (hpos hn), fun hb => hx.mul hb,
    fun hy => mul_nonneg (hpos hn).le hy, fun hle => mul_le_mul_of_nonneg_left hle (hpos hn).le⟩

theorem exists_roundsMonotone_div_ofNat (hn : 0 < n) :
    ∃ g, RoundsMonotone (· / Scalar.ofNat n) g := by
  obtain ⟨x, hx, hpos⟩ := exists_hasValue_ofNat n
  exact ⟨(· / x), infinity_div hx (hpos hn), fun hb => hb.div hx (hpos hn),
    fun hy => div_nonneg hy (hpos hn).le, fun hle => div_le_div_of_nonneg_right hle (hpos hn).le⟩

theorem roundsMonotone_round : RoundsMonotone Scalar.round fun x => roundHalfAway x where
  infinity_eq := by decide +kernel
  isRounded := fun h => (hasValue_roundFloat h).isRounded
  nonneg := fun h => Int.cast_nonneg (roundHalfAway_nonneg h)
  mono := fun h => Int.cast_le.mpr (roundHalfAway_mono h)

theorem isUnsigned_add (ha : IsUnsigned a) (hb : IsUnsigned b) : IsUnsigned (a + b) := by
  rcases hb.cases with rfl | ⟨y, _, hy⟩
  · rw [add_infinity ha]
    exact hb
  · exact (roundsMonotone_add_right hy).isUnsigned ha

end Operations

theorem Scalar.IsCounted.isUnsigned {a : Float} (h : IsCounted a) : IsUnsigned a := by
  induction h with
  | ofNat n => exact (isRounded_ofNat n).isUnsigned
  | add _ _ iha ihb => exact isUnsigned_add iha ihb
  | mul_ofNat _ hn ih =>
    obtain ⟨g, hg⟩ := exists_roundsMonotone_mul_ofNat hn
    exact hg.isUnsigned ih
  | ofNat_mul hn _ ih =>
    obtain ⟨g, hg⟩ := exists_roundsMonotone_ofNat_mul hn
    exact hg.isUnsigned ih
  | div_ofNat _ hn ih =>
    obtain ⟨g, hg⟩ := exists_roundsMonotone_div_ofNat hn
    exact hg.isUnsigned ih
  | round _ ih => exact roundsMonotone_round.isUnsigned ih

theorem float_add_le_add {a b c d : Float} (ha : IsUnsigned a) (hb : IsUnsigned b)
    (hc : IsUnsigned c) (hd : IsUnsigned d) (hab : a ≤ b) (hcd : c ≤ d) : a + c ≤ b + d := by
  have hleft : a + c ≤ b + c := by
    rcases hc.cases with rfl | ⟨z, _, hz⟩
    · rw [add_infinity ha, add_infinity hb]
      exact hc.isNumber
    · exact (roundsMonotone_add_right hz).le_of_le ha hb hab
  have hright : b + c ≤ b + d := by
    rcases hb.cases with rfl | ⟨y, _, hy⟩
    · rw [infinity_add hc, infinity_add hd]
      exact hb.isNumber
    · exact (roundsMonotone_add_left hy).le_of_le hc hd hcd
  exact OrderedScalar.le_trans hleft hright

theorem zero_le_of_isUnsigned {a : Float} (h : IsUnsigned a) : Scalar.ofNat 0 ≤ a := by
  have hzero : HasValue (Scalar.ofNat 0) (0 : ℕ) := hasValue_ofNat (by decide)
  rcases h.cases with rfl | ⟨x, _, hx⟩
  · exact hzero.isUnsigned.le_infinity
  · exact (hzero.le_iff hx).mpr (by simpa using Represents.nonneg hx)

theorem float_mul_one {n : ℕ} :
    (Scalar.ofNat n * Scalar.ofNat 1 : Float) = Scalar.ofNat n := by
  obtain ⟨x, hx, _⟩ := exists_hasValue_ofNat n
  have hproduct := hx.mul (hasValue_ofNat (n := 1) (by decide))
  rw [Nat.cast_one, mul_one] at hproduct
  exact (hproduct.hasValue (Represents.rounded_eq hx) hx.lt_limit).eq hx

instance : MonotoneScalar Float where
  zero_le := fun ha => zero_le_of_isUnsigned ha.isUnsigned
  le_refl := fun h => h.isUnsigned.isNumber
  le_antisymm := fun ha hb => ha.isUnsigned.eq_of_le_of_le hb.isUnsigned
  ofNat_le := fun h => (isRounded_ofNat _).le (isRounded_ofNat _) (Nat.cast_nonneg _)
    (Nat.cast_le.mpr (min_le_min_right _ h))
  ratio_self := fun h => (Scalar.ratio_self h).trans (by decide +kernel)
  mul_one := float_mul_one
  add_le_add := fun ha hb hc hd =>
    float_add_le_add ha.isUnsigned hb.isUnsigned hc.isUnsigned hd.isUnsigned
  mul_le_mul := by
    intro a b n ha hb hn hab
    obtain ⟨g, hg⟩ := exists_roundsMonotone_mul_ofNat hn
    obtain ⟨g', hg'⟩ := exists_roundsMonotone_ofNat_mul hn
    exact ⟨hg.le_of_le ha.isUnsigned hb.isUnsigned hab,
      hg'.le_of_le ha.isUnsigned hb.isUnsigned hab⟩
  div_le_div := by
    intro a b n ha hb hn hab
    obtain ⟨g, hg⟩ := exists_roundsMonotone_div_ofNat hn
    exact hg.le_of_le ha.isUnsigned hb.isUnsigned hab
  round_le_round := fun ha hb => roundsMonotone_round.le_of_le ha.isUnsigned hb.isUnsigned

end MigrationAudit
