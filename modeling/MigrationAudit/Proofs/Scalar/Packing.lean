import MigrationAudit.Proofs.Scalar.Order

/-!
# Packed values

A floating-point number is kept in a sign, an exponent and a mantissa, of which nothing is lost: what
is unpacked is packed as it was, and what has at most 53 bits and an exponent that fits is unpacked
as it was.
-/

namespace MigrationAudit

open Float.Model (Format UnpackedFloat)
open Float.Model.UnpackedFloat (Sign)

namespace Unpacked

/-! ## Components -/

section Components

variable {b b' : BitVec Format.binary64.numBits}

theorem unpackSign_packComponents {spec : Format} (s : Sign) (exponent : BitVec spec.exponentBits)
    (mantissa : BitVec spec.mantissaBitsWithoutImplicit) :
    UnpackedFloat.unpackSign (UnpackedFloat.packComponents spec s exponent mantissa) =
      s.toBitVec := by
  ext i hi
  obtain rfl : i = 0 := Nat.lt_one_iff.mp hi
  simp [UnpackedFloat.unpackSign, UnpackedFloat.packComponents, BitVec.getLsbD_append,
    BitVec.getElem_append]

theorem ofBitVec_toBitVec (s : Sign) : Sign.ofBitVec s.toBitVec = s := by
  cases s <;> rfl

theorem toBitVec_ofBitVec (v : BitVec 1) : (Sign.ofBitVec v).toBitVec = v := by
  revert v
  decide

theorem toNat_unpackMantissa (b : BitVec Format.binary64.numBits) :
    (UnpackedFloat.unpackMantissa b).toNat = b.toNat % 2 ^ 52 := by
  simp [UnpackedFloat.unpackMantissa]

theorem toNat_unpackExponent (b : BitVec Format.binary64.numBits) :
    (UnpackedFloat.unpackExponent b).toNat = b.toNat / 2 ^ 52 % 2 ^ 11 := by
  simp [UnpackedFloat.unpackExponent, Nat.shiftRight_eq_div_pow]

theorem toNat_unpackSign (b : BitVec Format.binary64.numBits) :
    (UnpackedFloat.unpackSign b).toNat = b.toNat / 2 ^ 63 % 2 := by
  simp [UnpackedFloat.unpackSign, Nat.shiftRight_eq_div_pow]

theorem eq_of_components (hsign : UnpackedFloat.unpackSign b = UnpackedFloat.unpackSign b')
    (hexponent : UnpackedFloat.unpackExponent b = UnpackedFloat.unpackExponent b')
    (hmantissa : UnpackedFloat.unpackMantissa b = UnpackedFloat.unpackMantissa b') : b = b' := by
  have hsign' := congrArg BitVec.toNat hsign
  have hexponent' := congrArg BitVec.toNat hexponent
  have hmantissa' := congrArg BitVec.toNat hmantissa
  rw [toNat_unpackSign, toNat_unpackSign] at hsign'
  rw [toNat_unpackExponent, toNat_unpackExponent] at hexponent'
  rw [toNat_unpackMantissa, toNat_unpackMantissa] at hmantissa'
  have hlt : b.toNat < 2 ^ 64 := b.isLt
  have hlt' : b'.toNat < 2 ^ 64 := b'.isLt
  apply BitVec.eq_of_toNat_eq
  omega

theorem packComponents_components (b : BitVec Format.binary64.numBits) :
    UnpackedFloat.packComponents Format.binary64 (Sign.ofBitVec (UnpackedFloat.unpackSign b))
      (UnpackedFloat.unpackExponent b) (UnpackedFloat.unpackMantissa b) = b := by
  apply eq_of_components
  · rw [unpackSign_packComponents, toBitVec_ofBitVec]
  · rw [UnpackedFloat.unpackExponent_packComponents]
  · rw [UnpackedFloat.unpackMantissa_packComponents]

/-- The leading bit of a mantissa is not kept. -/
theorem toNat_one_append (m : BitVec 52) : (1#1 ++ m).toNat = 2 ^ 52 + m.toNat := by
  rw [BitVec.toNat_append, ← Nat.shiftLeft_add_eq_or_of_lt m.isLt]
  rfl

theorem log2_add_one_eq {m : ℕ} (h : 2 ^ 52 ≤ m) (h' : m < 2 ^ 53) :
    m.log2 + 1 = Format.binary64.mantissaBits := by
  have hlow := (Nat.le_log2 (by omega)).mpr h
  have hhigh := (Nat.log2_lt (by omega)).mpr h'
  change m.log2 + 1 = 53
  omega

theorem log2_add_one_ne {m : ℕ} (hm : 0 < m) (h : m < 2 ^ 52) :
    m.log2 + 1 ≠ Format.binary64.mantissaBits := by
  have hhigh := (Nat.log2_lt hm.ne').mpr h
  change m.log2 + 1 ≠ 53
  omega

end Components

/-! ## Unpacked values -/

/-- What is unpacked has at most 53 bits, and fewer only with the least exponent. -/
theorem bounds_of_unpack {b : BitVec Format.binary64.numBits} {s : Sign} {m : ℕ} {e : ℤ}
    {hm : 0 < m} (h : UnpackedFloat.unpack Format.binary64 b = .finite s m e hm) :
    m < 2 ^ 53 ∧ -1074 ≤ e ∧ e ≤ 971 ∧ (2 ^ 52 ≤ m ∨ e = -1074) := by
  have hmantissa : (UnpackedFloat.unpackMantissa b).toNat < 2 ^ 52 := BitVec.isLt _
  have hexponent : (UnpackedFloat.unpackExponent b).toNat < 2 ^ 11 := BitVec.isLt _
  unfold UnpackedFloat.unpack at h
  dsimp only at h
  split_ifs at h with hones hinfinity hzero hsubnormal
  · injection h with _ hmant hexp
    rw [hzero] at hexp
    change (0 : ℤ) - (1023 + 52) + 1 = e at hexp
    omega
  · have hones' : (UnpackedFloat.unpackExponent b).toNat ≠ 2047 := by
      intro heq
      exact hones (BitVec.eq_of_toNat_eq heq)
    have hzero' : (UnpackedFloat.unpackExponent b).toNat ≠ 0 := by
      intro heq
      exact hzero (BitVec.eq_of_toNat_eq heq)
    injection h with _ hmant hexp
    rw [toNat_one_append] at hmant
    change ((UnpackedFloat.unpackExponent b).toNat : ℤ) - (1023 + 52) = e at hexp
    omega

theorem pack_unpack {b : BitVec Format.binary64.numBits}
    (h : UnpackedFloat.unpack Format.binary64 b ≠ .notANumber) :
    UnpackedFloat.pack Format.binary64 (UnpackedFloat.unpack Format.binary64 b) = b := by
  have hmantissa : (UnpackedFloat.unpackMantissa b).toNat < 2 ^ 52 := BitVec.isLt _
  have hexponent : (UnpackedFloat.unpackExponent b).toNat < 2 ^ 11 := BitVec.isLt _
  conv_rhs => rw [← packComponents_components b]
  unfold UnpackedFloat.unpack at h ⊢
  dsimp only at h ⊢
  split_ifs at h ⊢ with hones hinfinity hzero hmzero
  · rw [UnpackedFloat.pack, UnpackedFloat.packedInfinity, hones, hinfinity]
    rfl
  · exact absurd rfl h
  · rw [UnpackedFloat.pack, UnpackedFloat.packedZero, hzero, hmzero]
    rfl
  -- a subnormal number is packed without its leading bit, which it does not have
  · have hpos : 0 < (UnpackedFloat.unpackMantissa b).toNat :=
      Nat.pos_of_ne_zero fun heq => hmzero (BitVec.eq_of_toNat_eq heq)
    rw [hzero]
    unfold UnpackedFloat.pack
    dsimp only
    rw [if_neg (by decide), if_neg (log2_add_one_ne hpos hmantissa), BitVec.ofNat_toNat,
      BitVec.setWidth_eq]
  -- of a normal number the bias and the leading bit are taken away again
  · have hones' : (UnpackedFloat.unpackExponent b).toNat ≠ 2047 := by
      intro heq
      exact hones (BitVec.eq_of_toNat_eq heq)
    have hbiased : (((UnpackedFloat.unpackExponent b).toNat : ℤ) -
        (Format.binary64.exponentBias + Format.binary64.mantissaBitsWithoutImplicit) +
          Format.binary64.exponentBias + Format.binary64.mantissaBitsWithoutImplicit).toNat =
        (UnpackedFloat.unpackExponent b).toNat := by
      omega
    have hback : BitVec.ofNat 52 (1#1 ++ UnpackedFloat.unpackMantissa b).toNat =
        UnpackedFloat.unpackMantissa b := by
      apply BitVec.eq_of_toNat_eq
      rw [BitVec.toNat_ofNat, toNat_one_append]
      omega
    unfold UnpackedFloat.pack
    dsimp only
    rw [hbiased, if_neg (by change ¬ 2048 ≤ _; omega),
      if_pos (log2_add_one_eq (by rw [toNat_one_append]; omega) (by rw [toNat_one_append]; omega)),
      hback, BitVec.ofNat_toNat, BitVec.setWidth_eq]

theorem eq_of_unpack_eq {f g : Float.Model} (h : f.unpack = g.unpack)
    (hnumber : f.unpack ≠ .notANumber) : f = g := by
  have hf := pack_unpack (b := f.toBits.toBitVec) hnumber
  have hg := pack_unpack (b := g.toBits.toBitVec) fun hnan => hnumber (h.trans hnan)
  have hbits : f.toBits.toBitVec = g.toBits.toBitVec := by
    rw [← hf, ← hg]
    exact congrArg _ h
  obtain ⟨⟨fbits⟩, _⟩ := f
  obtain ⟨⟨gbits⟩, _⟩ := g
  obtain rfl : fbits = gbits := hbits
  rfl

/-! ## Packed values -/

section Pack

variable (s : Sign) {m : ℕ} {e : ℤ}

theorem unpack_pack_normal (hm : 2 ^ 52 ≤ m) (hlt : m < 2 ^ 53) (he : -1074 ≤ e) (he' : e ≤ 971)
    (hpos : 0 < m) : (Float.Model.pack (.finite s m e hpos)).unpack = .finite s m e hpos := by
  obtain ⟨biased, hbiased⟩ : ∃ biased : ℕ, (e + Format.binary64.exponentBias +
      Format.binary64.mantissaBitsWithoutImplicit).toNat = biased := ⟨_, rfl⟩
  have hvalue : (biased : ℤ) = e + 1075 := by
    change (e + 1023 + 52).toNat = biased at hbiased
    omega
  have htoNat : (BitVec.ofNat 11 biased).toNat = biased := by
    rw [BitVec.toNat_ofNat, Nat.mod_eq_of_lt (by omega)]
  have hones : BitVec.ofNat 11 biased ≠ -1#11 := by
    intro heq
    rw [heq] at htoNat
    change 2047 = biased at htoNat
    omega
  have hzero : BitVec.ofNat 11 biased ≠ 0#11 := by
    intro heq
    rw [heq] at htoNat
    change 0 = biased at htoNat
    omega
  have hmantissa : (1#1 ++ BitVec.ofNat 52 m).toNat = m := by
    rw [toNat_one_append, BitVec.toNat_ofNat]
    omega
  change UnpackedFloat.unpack Format.binary64
    (UnpackedFloat.pack Format.binary64 (.finite s m e hpos)) = _
  unfold UnpackedFloat.pack
  simp only [hbiased]
  rw [if_neg (by change ¬ 2048 ≤ biased + 1; omega), if_pos (log2_add_one_eq hm hlt)]
  unfold UnpackedFloat.unpack
  simp only [UnpackedFloat.unpackExponent_packComponents,
    UnpackedFloat.unpackMantissa_packComponents, unpackSign_packComponents, ofBitVec_toBitVec]
  rw [if_neg hones, if_neg hzero]
  congr 1
  change ((BitVec.ofNat 11 biased).toNat : ℤ) - (1023 + 52) = e
  omega

theorem unpack_pack_subnormal (hm : 0 < m) (hlt : m < 2 ^ 52) :
    (Float.Model.pack (.finite s m (-1074) hm)).unpack = .finite s m (-1074) hm := by
  have hmantissa : (BitVec.ofNat 52 m).toNat = m := by
    rw [BitVec.toNat_ofNat, Nat.mod_eq_of_lt hlt]
  have hne : BitVec.ofNat 52 m ≠ 0#52 := by
    intro heq
    rw [heq] at hmantissa
    exact hm.ne hmantissa
  change UnpackedFloat.unpack Format.binary64
    (UnpackedFloat.pack Format.binary64 (.finite s m (-1074) hm)) = _
  unfold UnpackedFloat.pack
  dsimp only
  rw [if_neg (by decide), if_neg (log2_add_one_ne hm hlt)]
  unfold UnpackedFloat.unpack
  simp only [UnpackedFloat.unpackExponent_packComponents,
    UnpackedFloat.unpackMantissa_packComponents, unpackSign_packComponents, ofBitVec_toBitVec]
  rw [if_neg (by decide), if_pos trivial, dif_neg hne]
  congr 1

/-- What has 53 bits, or fewer and the least exponent, is unpacked as it was. -/
theorem unpack_pack_finite (hm : 0 < m) (hlt : m < 2 ^ 53) (he : -1074 ≤ e) (he' : e ≤ 971)
    (hfull : 2 ^ 52 ≤ m ∨ e = -1074) :
    (Float.Model.pack (.finite s m e hm)).unpack = .finite s m e hm := by
  by_cases hnormal : 2 ^ 52 ≤ m
  · exact unpack_pack_normal s hnormal hlt he he' hm
  · obtain rfl := hfull.resolve_left hnormal
    exact unpack_pack_subnormal s hm (not_le.mp hnormal)

theorem unpack_pack_of_lt (hm : 0 < m) (he : 971 < e) :
    (Float.Model.pack (.finite s m e hm)).unpack = .infinity s := by
  have hbiased : 2 ^ Format.binary64.exponentBits ≤ (e + Format.binary64.exponentBias +
      Format.binary64.mantissaBitsWithoutImplicit).toNat + 1 := by
    change 2048 ≤ (e + 1023 + 52).toNat + 1
    omega
  change UnpackedFloat.unpack Format.binary64
    (UnpackedFloat.pack Format.binary64 (.finite s m e hm)) = _
  unfold UnpackedFloat.pack
  dsimp only
  rw [if_pos hbiased]
  cases s <;> rfl

end Pack

end Unpacked

end MigrationAudit
