import MigrationAudit.Proofs.Coverage.Growth

/-!
# Percentages

In exact arithmetic the coverage of a category is between 0 and 100, and only what is matched moves
it. Percentages have two decimals, so the mean is rounded onto the same grid that they lie on, and
rounding cannot lead it out of the interval between the least and the greatest of them.
-/

namespace MigrationAudit

/-! ## One category -/

namespace CategoryAudit

theorem coverageOf_zero (total : ℕ) : (coverageOf 0 total : Rat) = 0 := by
  have hratio : (Scalar.ratio 0 total : Rat) = 0 := by
    change ((0 : ℕ) : Rat) / total = 0
    rw [Nat.cast_zero, zero_div]
  unfold coverageOf
  rw [hratio]
  decide +kernel

theorem coverageOf_all {total : ℕ} (h : 0 < total) : (coverageOf total total : Rat) = 100 := by
  have hratio : (Scalar.ratio total total : Rat) = 1 := div_self (Nat.cast_ne_zero.mpr h.ne')
  unfold coverageOf
  rw [hratio]
  decide +kernel

theorem coverageOf_nonneg (matched : ℕ) {total : ℕ} (h : 0 < total) :
    (0 : Rat) ≤ coverageOf matched total :=
  (isCounted_coverageOf matched h).nonneg

theorem coverageOf_le (matched total : ℕ) : (coverageOf matched total : Rat) ≤ 100 := by
  have hcapped : Scalar.min (Scalar.ratio matched total * Scalar.ofNat 100) (Scalar.ofNat 100) ≤
      (100 : Rat) :=
    Scalar.min_le_right _ _
  calc coverageOf matched total ≤ Scalar.roundTo 100 100 := Scalar.roundTo_mono 100 hcapped
    _ = 100 := by decide +kernel

theorem roundTo_coverageOf (matched total : ℕ) :
    Scalar.roundTo 100 (coverageOf matched total : Rat) = coverageOf matched total :=
  Scalar.roundTo_roundTo (by decide) _

end CategoryAudit

/-! ## All categories -/

namespace CoverageReport

theorem exists_least_greatest {categories : List (CategoryCoverage Rat)} (h : categories ≠ []) :
    ∃ low ∈ categories, ∃ high ∈ categories, ∀ cov ∈ categories,
      low.coverage ≤ cov.coverage ∧ cov.coverage ≤ high.coverage := by
  have hne : categories.toFinset.Nonempty := List.toFinset_nonempty_iff _ |>.mpr h
  obtain ⟨low, hlow, hleast⟩ := categories.toFinset.exists_min_image (·.coverage) hne
  obtain ⟨high, hhigh, hgreatest⟩ := categories.toFinset.exists_max_image (·.coverage) hne
  simp only [List.mem_toFinset] at hlow hhigh hleast hgreatest
  exact ⟨low, hlow, high, hhigh, fun cov hcov => ⟨hleast cov hcov, hgreatest cov hcov⟩⟩

/-- Bounds that are rounded themselves also bound the rounded mean. -/
theorem overallOf_bounds {categories : List (CategoryCoverage Rat)} (hne : categories ≠ [])
    {low high : Rat} (hlow : Scalar.roundTo 100 low = low) (hhigh : Scalar.roundTo 100 high = high)
    (h : ∀ cov ∈ categories, low ≤ cov.coverage ∧ cov.coverage ≤ high) :
    low ≤ overallOf categories ∧ overallOf categories ≤ high := by
  have hmean : low ≤ Scalar.sum (categories.map (·.coverage)) / Scalar.ofNat categories.length ∧
      Scalar.sum (categories.map (·.coverage)) / Scalar.ofNat categories.length ≤ high := by
    rw [← categories.length_map (·.coverage)]
    exact Scalar.mean_bounds (by simpa using hne) (by simpa using h)
  constructor
  · rw [← hlow]
    exact Scalar.roundTo_mono 100 hmean.1
  · rw [← hhigh]
    exact Scalar.roundTo_mono 100 hmean.2

/-- What the percentages of a report can be. -/
structure InRange (r : CoverageReport Rat) : Prop where
  bounds : ∀ cov ∈ r.categories, 0 ≤ cov.coverage ∧ cov.coverage ≤ 100
  eq_hundred : ∀ cov ∈ r.categories, r.gapsIn cov.category = [] → cov.coverage = 100
  eq_zero : ∀ cov ∈ r.categories, r.edgesIn cov.category = [] → cov.coverage = 0
  le_of_matched_le : ∀ {source target s r'}, compare source target s = .ok r' →
    ∀ cov ∈ r.categories, ∀ cov' ∈ r'.categories, cov.sourceCount = cov'.sourceCount →
      cov.matched ≤ cov'.matched → cov.coverage ≤ cov'.coverage
  overall_bounds : ∃ low ∈ r.categories, ∃ high ∈ r.categories,
    (∀ cov ∈ r.categories, low.coverage ≤ cov.coverage ∧ cov.coverage ≤ high.coverage) ∧
      low.coverage ≤ r.overallCoverage ∧ r.overallCoverage ≤ high.coverage

section Compare

variable {source target : Project} {s : ComparisonSettings Rat} {r : CoverageReport Rat}
  {cov : CategoryCoverage Rat}

theorem coverage_eq_coverageOf (h : compare source target s = .ok r) (hcov : cov ∈ r.categories) :
    cov.coverage = coverageOf cov.matched cov.sourceCount := by
  obtain ⟨_, _, _, _, rfl⟩ := compare_eq_ok_iff.mp h
  rw [categories_ofProjects] at hcov
  obtain ⟨c, _, rfl⟩ := List.mem_map.mp hcov
  rfl

theorem sourceCount_pos (h : compare source target s = .ok r) (hcov : cov ∈ r.categories) :
    0 < cov.sourceCount := by
  obtain ⟨_, _, _, _, rfl⟩ := compare_eq_ok_iff.mp h
  rw [categories_ofProjects] at hcov
  obtain ⟨c, hc, rfl⟩ := List.mem_map.mp hcov
  exact s.length_sourceEntities_pos source hc

theorem overallCoverage_eq (h : compare source target s = .ok r) :
    r.overallCoverage = overallOf r.categories := by
  obtain ⟨_, _, _, _, rfl⟩ := compare_eq_ok_iff.mp h
  rfl

theorem compare_inRange (h : compare source target s = .ok r) : r.InRange := by
  have hcounts := (compare_accountsFor h).counts_eq
  constructor
  case bounds =>
    intro cov hcov
    rw [coverage_eq_coverageOf h hcov]
    exact ⟨CategoryAudit.coverageOf_nonneg _ (sourceCount_pos h hcov),
      CategoryAudit.coverageOf_le _ _⟩
  case eq_hundred =>
    intro cov hcov hgaps
    obtain ⟨_, hsum, _⟩ := hcounts cov hcov
    rw [hgaps, List.length_nil, Nat.add_zero] at hsum
    rw [coverage_eq_coverageOf h hcov, hsum]
    exact CategoryAudit.coverageOf_all (sourceCount_pos h hcov)
  case eq_zero =>
    intro cov hcov hedges
    obtain ⟨hmatched, _⟩ := hcounts cov hcov
    rw [hedges, List.length_nil] at hmatched
    rw [coverage_eq_coverageOf h hcov, hmatched]
    exact CategoryAudit.coverageOf_zero _
  case le_of_matched_le =>
    intro source' target' s' r' h' cov hcov cov' hcov' hcount hmatched
    rw [coverage_eq_coverageOf h hcov, coverage_eq_coverageOf h' hcov', hcount]
    exact CategoryAudit.coverageOf_mono hmatched (sourceCount_pos h' hcov')
  case overall_bounds =>
    obtain ⟨low, hlow, high, hhigh, hbounds⟩ := exists_least_greatest (categories_ne_nil h)
    refine ⟨low, hlow, high, hhigh, hbounds, ?_⟩
    rw [overallCoverage_eq h]
    apply overallOf_bounds (categories_ne_nil h) _ _ hbounds
    · rw [coverage_eq_coverageOf h hlow, CategoryAudit.roundTo_coverageOf]
    · rw [coverage_eq_coverageOf h hhigh, CategoryAudit.roundTo_coverageOf]

theorem customerForm_inRange :
    ∃ r, compare (.ofUnits [customerForm]) (.ofUnits [customerController])
        (.standard : ComparisonSettings Rat) = .ok r ∧ r.InRange :=
  ⟨_, compare_customerForm rfl, compare_inRange (compare_customerForm rfl)⟩

end Compare

end CoverageReport

end MigrationAudit
