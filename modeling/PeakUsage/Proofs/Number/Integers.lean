import PeakUsage.Proofs.Json.Reals

/-! Integers of 64 bits are read as finite floats. -/
namespace PeakUsage.Number
open Float.Model Float.Model.UnpackedFloat

theorem mantissa_shiftRight_le (em : ExtendedMantissa) (k : Nat) :
    (em >>> k).mantissa ≤ em.mantissa := by
  change (k.repeat ExtendedMantissa.shiftRightOne em).mantissa ≤ _
  induction k with
  | zero => exact Nat.le_refl _
  | succ k ih => exact (Nat.div_le_self _ 2).trans ih

theorem roundedMantissa_le (em : ExtendedMantissa) : em.roundedMantissa ≤ em.mantissa + 1 := by
  obtain ⟨m, r, s⟩ := em
  cases r with
  | false => cases s <;> exact Nat.le_succ m
  | true =>
    cases s with
    | false =>
      change m + m % 2 ≤ m + 1
      omega
    | true => exact Nat.le_refl _

/-- A rounding shifts a mantissa to the right and raises the exponent as far. -/
theorem shiftToTargetExponent_bounds (M : Nat) (t : Int) :
    (shiftToTargetExponent Format.binary64 M t .exact).1.mantissa ≤ M ∧
      (shiftToTargetExponent Format.binary64 M t .exact).2 =
        max t (max (M.log2 + 1 + t - 53) (-1074)) := by
  refine ⟨mantissa_shiftRight_le _ _, ?_⟩
  change t + ((Format.binary64.targetExponent (totalExponent M t) - t).toNat : Int) = _
  rw [targetExponent_eq, totalExponent]
  omega

theorem isFinite_packed_zero (s : Sign) : isFinite (packed (.zero s)) = true := by
  rw [isFinite, (packed_zero s).2]
  decide

/-- What is rounded from a mantissa of 128 bits without an exponent is finite. -/
theorem isFinite_roundWithAccuracy {M : Nat} {t : Int} (hM : M < 2 ^ 128) (ht : t ≤ 0) (s : Sign) :
    isFinite (packed (roundWithAccuracy Format.binary64 s M t .exact)) = true := by
  obtain ⟨hmantissa, hexponent⟩ := shiftToTargetExponent_bounds M t
  have hrounded := roundedMantissa_le (shiftToTargetExponent Format.binary64 M t .exact).1
  unfold roundWithAccuracy
  generalize shiftToTargetExponent Format.binary64 M t .exact = first at *
  obtain ⟨em, e⟩ := first
  dsimp only at *
  obtain ⟨-, hexponent'⟩ := shiftToTargetExponent_bounds em.roundedMantissa e
  have hlog : M.log2 ≤ 128 := by
    by_cases hzero : M = 0
    · rw [hzero]
      decide
    · exact Nat.le_of_lt ((Nat.log2_lt hzero).mpr hM)
  have hlog' : em.roundedMantissa.log2 ≤ 129 := by
    by_cases hzero : em.roundedMantissa = 0
    · rw [hzero]
      decide
    · exact Nat.le_of_lt ((Nat.log2_lt hzero).mpr (by omega))
  split
  · exact isFinite_packed_zero s
  · refine decide_eq_true ((packed_finite s _ _ _).2.2 ?_)
    rw [hexponent']
    omega

/-- A natural number below `2 ^ 64` is read as a finite float. -/
theorem isFinite_ofNat {n : Nat} (hn : n < 2 ^ 64) : isFinite (Float.ofNat n) = true := by
  rcases Nat.eq_zero_or_pos n with rfl | hpos
  · decide
  have hten : Float.exactlyRepresentablePowersOfTen[0].toModel.unpack =
      .finite .positive (2 ^ 52) (-52) (Nat.two_pow_pos 52) := by
    rfl
  change isFinite (Float.ofScientific n false 0) = true
  rw [Float.ofScientific]
  split
  · next hfast =>
    obtain ⟨m, e, hc, he, -, hfloat⟩ := unpack_toFloat hpos hfast.1
    have hmul : m * 2 ^ 52 < 2 ^ 128 := by
      have hlt := hc.lt
      omega
    have hproduct := isFinite_roundWithAccuracy hmul (t := e + -52) (by omega) .positive
    change isFinite (packed (UnpackedFloat.mul Format.binary64 n.toUInt64.toFloat.toModel.unpack
      Float.exactlyRepresentablePowersOfTen[0].toModel.unpack)) = true
    rw [hfloat, hten]
    exact hproduct
  · have hbits : (2 : Int) ^ Format.binary64.exponentBits = 2048 := rfl
    have hshift : n <<< 53 * 10 ^ 0 < 2 ^ 128 := by
      rw [Nat.shiftLeft_eq, pow_zero, mul_one]
      omega
    have hproduct := isFinite_roundWithAccuracy hshift (t := -53 + 0) (by omega) .positive
    change isFinite (packed (UnpackedFloat.ofScientific Format.binary64 n 0)) = true
    rw [UnpackedFloat.ofScientific, dif_neg (Nat.ne_of_gt hpos), if_neg (by omega),
      if_neg (by omega), if_pos le_rfl]
    exact hproduct

/-- An integer of 64 bits is read as a finite float. -/
theorem isFinite_ofInt {n : Int} (hlow : Json.minSigned ≤ n) (hhigh : n ≤ Json.maxUnsigned) :
    isFinite (Float.ofInt n) = true := by
  have hmin : Json.minSigned = -9223372036854775808 := rfl
  have hmax : Json.maxUnsigned = 18446744073709551615 := rfl
  cases n with
  | ofNat m =>
    rw [Int.ofNat_eq_natCast] at hhigh
    exact isFinite_ofNat (by omega)
  | negSucc m =>
    have hfinite : isFinite (Float.ofNat (m + 1)) = true := isFinite_ofNat (by omega)
    change isFinite (-Float.ofNat (m + 1)) = true
    rw [isFinite, (neg_parts hfinite).2]
    exact hfinite

end PeakUsage.Number
