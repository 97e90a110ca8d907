import MigrationAudit.Proofs.Scalar.Counted
import MigrationAudit.Settings.Basic

/-!
# Thresholds out of range

Similarity and confidence go from zero to one, coverage goes from zero to a hundred. What is below
or above is out of range, and so is what is not a number at all. Of several thresholds that are out
of range the first one is the fault.
-/

namespace MigrationAudit

/-- A value that lies below zero or above a bound, or is not a number. -/
def IsOutOfRange (bound : ℕ) (x : Float) : Prop :=
  x.isNaN = true ∨ x < 0 ∨ Scalar.ofNat bound < x

theorem isNaN_iff {x : Float} : x.isNaN = true ↔ ¬ Scalar.IsNumber x := by
  rw [Scalar.isNumber_iff, not_not, Float.isNaN, Float.Model.isNaN]
  cases x.toModel.unpack <;> simp [Float.Model.UnpackedFloat.isNaN]

theorem Scalar.isNumber_of_le {x y : Float} (h : x ≤ y) : IsNumber y := by
  obtain ⟨_, place, _, hplace, _⟩ := float_le_iff.mp h
  exact float_le_iff.mpr ⟨place, place, hplace, hplace, le_rfl⟩

theorem not_isOutOfRange_iff {bound : ℕ} {x : Float} :
    ¬ IsOutOfRange bound x ↔ Scalar.ofNat 0 ≤ x ∧ x ≤ Scalar.ofNat bound := by
  have hzero : (0 : Float) = Scalar.ofNat 0 := by
    have hvalue := hasValue_ofNat (n := 0) (by norm_num)
    rw [Nat.cast_zero] at hvalue
    exact hasValue_zero.eq hvalue
  have hnumber (n : ℕ) : Scalar.IsNumber (Scalar.ofNat n : Float) :=
    MonotoneScalar.le_refl (.ofNat n)
  rw [IsOutOfRange, not_or, not_or, isNaN_iff, not_not, hzero]
  constructor
  · rintro ⟨hx, hlow, hhigh⟩
    exact ⟨OrderedScalar.le_of_not_lt hx (hnumber 0) hlow,
      OrderedScalar.le_of_not_lt (hnumber bound) hx hhigh⟩
  · rintro ⟨hlow, hhigh⟩
    exact ⟨Scalar.isNumber_of_le hlow, OrderedScalar.not_lt_of_le hlow,
      OrderedScalar.not_lt_of_le hhigh⟩

/-! ## The four thresholds -/

open Classical in
theorem ThresholdFault.of?_eq (name : String) (bound : ℕ) (x : Float) :
    of? name bound x = if IsOutOfRange bound x then some ⟨name, bound, x⟩ else none := by
  rw [of?, if_congr not_isOutOfRange_iff.symm rfl rfl, ite_not]

namespace Thresholds

variable {t : Thresholds Float} {fault : ThresholdFault Float}

def bounded (t : Thresholds Float) : List (ThresholdFault Float) :=
  [⟨"similarity_floor", 1, t.similarityFloor⟩, ⟨"min_confidence", 1, t.minConfidence⟩,
    ⟨"coverage_threshold", 100, t.coverageThreshold⟩,
    ⟨"recommendation_coverage", 100, t.recommendationCoverage⟩]

def AreInRange (t : Thresholds Float) : Prop := ∀ b ∈ t.bounded, ¬ IsOutOfRange b.bound b.value

/-- The first threshold that is out of range. -/
def IsFirstFault (t : Thresholds Float) (fault : ThresholdFault Float) : Prop :=
  ∃ front back, t.bounded = front ++ fault :: back ∧ IsOutOfRange fault.bound fault.value ∧
    ∀ b ∈ front, ¬ IsOutOfRange b.bound b.value

open Classical in
theorem fault?_eq_find? :
    t.fault? = t.bounded.find? fun b => decide (IsOutOfRange b.bound b.value) := by
  have hstep (name : String) (bound : ℕ) (x : Float) (rest : List (ThresholdFault Float)) :
      (ThresholdFault.of? name bound x <|>
          rest.find? fun b => decide (IsOutOfRange b.bound b.value)) =
        (⟨name, bound, x⟩ :: rest).find? fun b => decide (IsOutOfRange b.bound b.value) := by
    rw [ThresholdFault.of?_eq]
    by_cases h : IsOutOfRange bound x <;> simp [h]
  rw [fault?, bounded, ← hstep, ← hstep, ← hstep, ← hstep, List.find?_nil]
  simp

theorem fault?_eq_some_iff : t.fault? = some fault ↔ t.IsFirstFault fault := by
  rw [fault?_eq_find?, List.find?_eq_some_iff_append, IsFirstFault]
  constructor
  · rintro ⟨hfault, front, back, heq, hfront⟩
    exact ⟨front, back, heq, by simpa using hfault, by simpa using hfront⟩
  · rintro ⟨front, back, heq, hfault, hfront⟩
    exact ⟨by simpa using hfault, front, back, heq, by simpa using hfront⟩

theorem fault?_eq_none_iff : t.fault? = none ↔ t.AreInRange := by
  rw [fault?_eq_find?, List.find?_eq_none, AreInRange]
  simp

end Thresholds

end MigrationAudit
