import Mathlib
import PeakUsage.Number.Shortest

/-! The parts of a binary64 number and the bits they are packed into. -/
namespace PeakUsage.Number
open Float.Model Float.Model.UnpackedFloat

theorem fractionSize_eq : fractionSize = 4503599627370496 := rfl

theorem signWeight_eq : signWeight = 9223372036854775808 := rfl

theorem magnitude_lt (x : Float) : magnitude x < signWeight := Nat.mod_lt _ (by decide)

/-! ### Bits -/

section
variable (b : BitVec Format.binary64.numBits)

theorem toNat_unpackMantissa :
    (@unpackMantissa Format.binary64 b).toNat = b.toNat % fractionSize := by
  simp [unpackMantissa, BitVec.extractLsb, fractionSize_eq]

theorem toNat_unpackExponent :
    (@unpackExponent Format.binary64 b).toNat = b.toNat / fractionSize % 2048 := by
  simp [unpackExponent, BitVec.extractLsb, fractionSize_eq, Nat.shiftRight_eq_div_pow]

theorem toNat_unpackSign :
    (@unpackSign Format.binary64 b).toNat = b.toNat / signWeight % 2 := by
  simp [unpackSign, BitVec.extractLsb, signWeight_eq, Nat.shiftRight_eq_div_pow]

theorem toNat_append {m n : Nat} (x : BitVec m) (y : BitVec n) :
    (x ++ y).toNat = x.toNat * 2 ^ n + y.toNat := by
  rw [BitVec.toNat_append, ← Nat.shiftLeft_add_eq_or_of_lt y.isLt, Nat.shiftLeft_eq]

theorem toNat_packComponents (s : Sign) (e : BitVec 11) (m : BitVec 52) :
    (packComponents Format.binary64 s e m).toNat =
      s.toBitVec.toNat * signWeight + (e.toNat * fractionSize + m.toNat) := by
  rw [packComponents, toNat_append, toNat_append]
  change (_ * 2 ^ 11 + _) * 2 ^ 52 + _ = _ * 2 ^ 63 + (_ * 2 ^ 52 + _)
  omega

end

/-- The sign of a number. -/
def signOf (x : Float) : Sign := if isNegative x then .negative else .positive

/-! ### The parts of a number -/

section
variable {x : Float}

theorem sign_unpack (x : Float) :
    Sign.ofBitVec (@unpackSign Format.binary64 x.toBits.toBitVec) = signOf x := by
  have hlt : x.toBits.toNat < 18446744073709551616 := x.toBits.toNat_lt
  have hsign := toNat_unpackSign x.toBits.toBitVec
  rw [Sign.ofBitVec, signOf, isNegative]
  have hzero : @unpackSign Format.binary64 x.toBits.toBitVec = 0#1 ↔
      ¬ signWeight ≤ x.toBits.toNat := by
    rw [← BitVec.toNat_inj, hsign, signWeight_eq]
    change x.toBits.toNat / _ % 2 = 0 ↔ _
    omega
  simp only [hzero, decide_eq_true_eq]
  split <;> simp_all

theorem toNat_exponent (x : Float) :
    (@unpackExponent Format.binary64 x.toBits.toBitVec).toNat = magnitude x / fractionSize := by
  rw [toNat_unpackExponent, magnitude, signWeight_eq, fractionSize_eq]
  change x.toBits.toNat / _ % _ = _
  omega

theorem toNat_mantissa (x : Float) :
    (@unpackMantissa Format.binary64 x.toBits.toBitVec).toNat = magnitude x % fractionSize := by
  rw [toNat_unpackMantissa, magnitude, signWeight_eq, fractionSize_eq]
  change x.toBits.toNat % _ = _
  omega

theorem exponent_eq_ones_iff (x : Float) :
    @unpackExponent Format.binary64 x.toBits.toBitVec = -1#11 ↔
      infiniteMagnitude ≤ magnitude x := by
  have hlt := magnitude_lt x
  rw [signWeight_eq] at hlt
  rw [← BitVec.toNat_inj, toNat_exponent, infiniteMagnitude, fractionSize_eq]
  change _ / _ = 2047 ↔ _
  omega

theorem exponent_eq_zero_iff (x : Float) :
    @unpackExponent Format.binary64 x.toBits.toBitVec = 0#11 ↔
      magnitude x < fractionSize := by
  rw [← BitVec.toNat_inj, toNat_exponent, fractionSize_eq]
  change _ / _ = 0 ↔ _
  omega

theorem mantissa_eq_zero_iff (x : Float) :
    @unpackMantissa Format.binary64 x.toBits.toBitVec = 0#52 ↔
      magnitude x % fractionSize = 0 := by
  rw [← BitVec.toNat_inj, toNat_mantissa]
  rfl

theorem unpack_of_infinite (h : magnitude x = infiniteMagnitude) :
    x.toModel.unpack = .infinity (signOf x) := by
  have hones := (exponent_eq_ones_iff x).mpr (Nat.le_of_eq h.symm)
  have hzero := (mantissa_eq_zero_iff x).mpr (by rw [h]; rfl)
  rw [Float.Model.unpack, UnpackedFloat.unpack]
  simp only [Float.toBits] at hones hzero
  rw [if_pos hones, if_pos hzero]
  exact congrArg _ (sign_unpack x)

theorem unpack_of_zero (h : magnitude x = 0) : x.toModel.unpack = .zero (signOf x) := by
  have hones := mt (exponent_eq_ones_iff x).mp (by rw [h]; decide)
  have hsmall := (exponent_eq_zero_iff x).mpr (by rw [h]; decide)
  have hzero := (mantissa_eq_zero_iff x).mpr (by rw [h]; rfl)
  rw [Float.Model.unpack, UnpackedFloat.unpack]
  simp only [Float.toBits] at hones hsmall hzero
  rw [if_neg hones, if_pos hsmall, dif_pos hzero]
  exact congrArg _ (sign_unpack x)

theorem finite_eq {s t : Sign} {m n : Nat} {e f : Int} (hm : 0 < m) (hs : s = t) (hmn : m = n)
    (hef : e = f) : ∃ hn, UnpackedFloat.finite s m e hm = .finite t n f hn := by
  subst hs hmn hef
  exact ⟨hm, rfl⟩

theorem unpack_of_finite (hfinite : isFinite x = true) (hne : magnitude x ≠ 0) :
    ∃ h, x.toModel.unpack =
      .finite (signOf x) (Scaled.ofMagnitude (magnitude x)).mantissa
        (Scaled.ofMagnitude (magnitude x)).exponent h := by
  have hlt : magnitude x < infiniteMagnitude := of_decide_eq_true hfinite
  have hones := mt (exponent_eq_ones_iff x).mp (Nat.not_le_of_lt hlt)
  have hsign := sign_unpack x
  have hexponent := toNat_exponent x
  have hmantissa := toNat_mantissa x
  have hsmall := exponent_eq_zero_iff x
  have hzero := mantissa_eq_zero_iff x
  rw [Float.Model.unpack, UnpackedFloat.unpack]
  simp only [Float.toBits] at hones hsmall hzero hsign hexponent hmantissa
  rw [if_neg hones, Scaled.ofMagnitude]
  have hbias : ((Format.binary64.exponentBias : Nat) : Int) = 1023 := rfl
  by_cases hsub : magnitude x < fractionSize
  · have hdiv : magnitude x / fractionSize = 0 := Nat.div_eq_of_lt hsub
    have hmod : magnitude x % fractionSize = magnitude x := Nat.mod_eq_of_lt hsub
    have hnonzero := mt hzero.mp (by rwa [hmod])
    simp only [if_pos (hsmall.mpr hsub), dif_neg hnonzero, hdiv, if_true]
    refine finite_eq _ hsign hmantissa ?_
    rw [hexponent, hdiv, hbias]
    rfl
  · have hdiv : magnitude x / fractionSize ≠ 0 := by
      rw [fractionSize_eq] at hsub ⊢
      omega
    simp only [if_neg (mt hsmall.mp hsub), if_neg hdiv]
    refine finite_eq _ hsign ?_ ?_
    · rw [toNat_append, hmantissa]
      rfl
    · rw [hexponent, hbias]
      omega

end

/-! ### Packed numbers -/

/-- The number with these parts. -/
def packed (u : UnpackedFloat) : Float := .ofModel (.pack u)

theorem toNat_toBits_packed (u : UnpackedFloat) :
    (packed u).toBits.toNat = (UnpackedFloat.pack Format.binary64 u).toNat := rfl

/-- A sign, an exponent and a mantissa make up the bits of a number. -/
theorem packed_of_components {u : UnpackedFloat} {s : Sign} {e : BitVec 11} {m : BitVec 52}
    (h : UnpackedFloat.pack Format.binary64 u = packComponents Format.binary64 s e m) :
    signOf (packed u) = s ∧ magnitude (packed u) = e.toNat * fractionSize + m.toNat := by
  have hlt : e.toNat * fractionSize + m.toNat < signWeight := by
    have he : e.toNat < 2048 := e.isLt
    have hm : m.toNat < 4503599627370496 := m.isLt
    rw [signWeight_eq, fractionSize_eq]
    omega
  have hbits := toNat_toBits_packed u
  rw [h, toNat_packComponents] at hbits
  rw [signOf, isNegative, magnitude, hbits, Nat.mul_add_mod_of_lt hlt]
  cases s with
  | negative =>
    have hsign : Sign.negative.toBitVec.toNat = 1 := rfl
    simp [hsign]
  | positive =>
    have hsign : Sign.positive.toBitVec.toNat = 0 := rfl
    simp [hsign, hlt]

theorem packed_infinity (s : Sign) :
    signOf (packed (.infinity s)) = s ∧ magnitude (packed (.infinity s)) = infiniteMagnitude := by
  have h := packed_of_components (u := .infinity s) (s := s) (e := -1#_) (m := 0) rfl
  have he : (-1#11).toNat = 2047 := rfl
  have hm : (0 : BitVec 52).toNat = 0 := rfl
  rwa [he, hm] at h

theorem packed_zero (s : Sign) :
    signOf (packed (.zero s)) = s ∧ magnitude (packed (.zero s)) = 0 := by
  have h := packed_of_components (u := .zero s) (s := s) (e := 0) (m := 0) rfl
  have he : (0 : BitVec 11).toNat = 0 := rfl
  have hm : (0 : BitVec 52).toNat = 0 := rfl
  rwa [he, hm, Nat.zero_mul] at h

/-- A finite number is packed into one or, when it is too great, into an infinity. -/
theorem packed_finite (s : Sign) (m : Nat) (e : Int) (h : 0 < m) :
    signOf (packed (.finite s m e h)) = s ∧
      magnitude (packed (.finite s m e h)) ≤ infiniteMagnitude ∧
      (e ≤ 971 → magnitude (packed (.finite s m e h)) < infiniteMagnitude) := by
  let biased :=
    (e + Format.binary64.exponentBias + Format.binary64.mantissaBitsWithoutImplicit).toNat
  have hbias : ((Format.binary64.exponentBias : Nat) : Int) = 1023 := rfl
  have hbiased : biased = (e + 1075).toNat := by
    simp only [biased, hbias]
    omega
  have hpack : UnpackedFloat.pack Format.binary64 (.finite s m e h) =
      if 2048 ≤ biased + 1 then packedInfinity Format.binary64 s
      else if m.log2 + 1 = 53 then
        packComponents Format.binary64 s (BitVec.ofNat 11 biased) (BitVec.ofNat 52 m)
      else packComponents Format.binary64 s 0#11 (BitVec.ofNat 52 m) := rfl
  have hm : (BitVec.ofNat 52 m).toNat < 4503599627370496 := (BitVec.ofNat 52 m).isLt
  split at hpack
  · obtain ⟨hsign, hmagnitude⟩ := packed_of_components hpack
    refine ⟨hsign, ?_, by omega⟩
    rw [hmagnitude]
    decide
  · have hlt : magnitude (packed (.finite s m e h)) < infiniteMagnitude ∧
        signOf (packed (.finite s m e h)) = s := by
      split at hpack
      · obtain ⟨hsign, hmagnitude⟩ := packed_of_components hpack
        refine ⟨?_, hsign⟩
        rw [hmagnitude, BitVec.toNat_ofNat, Nat.mod_eq_of_lt (by omega), infiniteMagnitude,
          fractionSize_eq]
        omega
      · obtain ⟨hsign, hmagnitude⟩ := packed_of_components hpack
        refine ⟨?_, hsign⟩
        rw [hmagnitude, BitVec.toNat_ofNat, infiniteMagnitude, fractionSize_eq]
        omega
    exact ⟨hlt.2, Nat.le_of_lt hlt.1, fun _ => hlt.1⟩

/-! ### Canonical numbers -/

/-- The mantissa and the exponent of a finite number, as they are packed. -/
structure Canonical (m : Nat) (e : Int) : Prop where
  pos : 0 < m
  lt : m < 2 ^ 53
  exponent : -1074 ≤ e
  normal : 2 ^ 52 ≤ m ∨ e = -1074

/-- The magnitude that a canonical number is packed into, if its exponent fits. -/
def magnitudeOf (m : Nat) (e : Int) : Nat := (e + 1074).toNat * fractionSize + m

section
variable {m : Nat} {e : Int}

theorem packed_canonical (hc : Canonical m e) (he : e ≤ 971) (s : Sign) :
    signOf (packed (.finite s m e hc.pos)) = s ∧
      magnitude (packed (.finite s m e hc.pos)) = magnitudeOf m e := by
  obtain ⟨hpos, hlt, hexponent, hnormal⟩ := hc
  let biased :=
    (e + Format.binary64.exponentBias + Format.binary64.mantissaBitsWithoutImplicit).toNat
  have hbias : ((Format.binary64.exponentBias : Nat) : Int) = 1023 := rfl
  have hbiased : (biased : Int) = e + 1075 := by
    simp only [biased, hbias]
    omega
  have hpack : UnpackedFloat.pack Format.binary64 (.finite s m e hpos) =
      if 2048 ≤ biased + 1 then packedInfinity Format.binary64 s
      else if m.log2 + 1 = 53 then
        packComponents Format.binary64 s (BitVec.ofNat 11 biased) (BitVec.ofNat 52 m)
      else packComponents Format.binary64 s 0#11 (BitVec.ofNat 52 m) := rfl
  rw [if_neg (by omega)] at hpack
  by_cases hbig : 2 ^ 52 ≤ m
  · have hlog : m.log2 + 1 = 53 := by
      have hlow := (Nat.le_log2 (Nat.ne_of_gt hpos)).mpr hbig
      have hhigh := (Nat.log2_lt (Nat.ne_of_gt hpos)).mpr hlt
      omega
    rw [if_pos hlog] at hpack
    obtain ⟨hsign, hmagnitude⟩ := packed_of_components hpack
    refine ⟨hsign, ?_⟩
    rw [hmagnitude, BitVec.toNat_ofNat, BitVec.toNat_ofNat, Nat.mod_eq_of_lt (by omega),
      magnitudeOf, fractionSize_eq]
    omega
  · have hsmall : e = -1074 := hnormal.resolve_left hbig
    have hlog : m.log2 + 1 ≠ 53 := by
      have hhigh := (Nat.log2_lt (Nat.ne_of_gt hpos)).mpr (Nat.lt_of_not_le hbig)
      omega
    rw [if_neg hlog] at hpack
    obtain ⟨hsign, hmagnitude⟩ := packed_of_components hpack
    refine ⟨hsign, ?_⟩
    have hmod : (BitVec.ofNat 52 m).toNat = m := by
      rw [BitVec.toNat_ofNat, Nat.mod_eq_of_lt (Nat.lt_of_not_le hbig)]
    rw [hmagnitude, hmod, magnitudeOf, hsmall]
    rfl

/-- The parts of a magnitude are canonical, and it is packed from them. -/
theorem canonical_ofMagnitude {n : Nat} (hn : n ≠ 0) (hfinite : n < infiniteMagnitude) :
    let s := Scaled.ofMagnitude n
    Canonical s.mantissa s.exponent ∧ s.exponent ≤ 971 ∧ magnitudeOf s.mantissa s.exponent = n ∧
      s.below = if s.mantissa = 2 ^ 52 ∧ -1074 < s.exponent then 1 else 2 := by
  rw [infiniteMagnitude, fractionSize_eq] at hfinite
  by_cases hzero : n / fractionSize = 0
  · have hs : Scaled.ofMagnitude n = ⟨n % fractionSize, -1074, 2⟩ := if_pos hzero
    rw [fractionSize_eq] at hs hzero
    rw [hs]
    refine ⟨⟨?_, ?_, ?_, .inr rfl⟩, ?_, ?_, ?_⟩ <;> simp only [magnitudeOf, fractionSize_eq]
    · omega
    · omega
    · decide
    · decide
    · omega
    · rw [if_neg fun h => absurd h.2 (by decide)]
  · have hs : Scaled.ofMagnitude n = ⟨fractionSize + n % fractionSize,
        ((n / fractionSize : Nat) : Int) - 1075,
        if n % fractionSize = 0 ∧ 1 < n / fractionSize then 1 else 2⟩ := if_neg hzero
    rw [fractionSize_eq] at hs hzero
    rw [hs]
    refine ⟨⟨?_, ?_, ?_, .inl ?_⟩, ?_, ?_, ?_⟩ <;> simp only [magnitudeOf, fractionSize_eq]
    · omega
    · omega
    · omega
    · omega
    · omega
    · omega
    · have hiff : (n % 4503599627370496 = 0 ∧ 1 < n / 4503599627370496) ↔
          (4503599627370496 + n % 4503599627370496 = 2 ^ 52 ∧
            -1074 < ((n / 4503599627370496 : Nat) : Int) - 1075) := by omega
      simp only [hiff]

theorem eq_of_parts {x y : Float} (hsign : signOf x = signOf y)
    (hmagnitude : magnitude x = magnitude y) : x = y := by
  have hnegative : isNegative x = isNegative y := by
    unfold signOf at hsign
    cases hx : isNegative x <;> cases hy : isNegative y <;> simp_all
  have hbits : x.toBits.toNat = y.toBits.toNat := by
    have hx := x.toBits.toNat_lt
    have hy := y.toBits.toNat_lt
    have hweight : signWeight = 9223372036854775808 := signWeight_eq
    simp only [isNegative, magnitude, hweight, decide_eq_decide] at hnegative hmagnitude
    omega
  obtain ⟨⟨bx, hx⟩⟩ := x
  obtain ⟨⟨bz, hz⟩⟩ := y
  obtain rfl : bx = bz := UInt64.toNat_inj.mp hbits
  rfl

theorem magnitudeOf_bounds (hc : Canonical m e) (he : e ≤ 971) :
    magnitudeOf m e ≠ 0 ∧ magnitudeOf m e < infiniteMagnitude := by
  obtain ⟨hpos, hlt, hexponent, hnormal⟩ := hc
  simp only [magnitudeOf, infiniteMagnitude, fractionSize_eq]
  omega

theorem magnitudeOf_inj {n : Nat} {f : Int} (hc : Canonical m e) (hd : Canonical n f)
    (h : magnitudeOf m e = magnitudeOf n f) : m = n ∧ e = f := by
  obtain ⟨-, hlt, hexponent, hnormal⟩ := hc
  obtain ⟨-, hlt', hexponent', hnormal'⟩ := hd
  simp only [magnitudeOf, fractionSize_eq] at h
  omega

/-- A canonical number is unpacked into the parts it was packed from. -/
theorem unpack_packed (hc : Canonical m e) (he : e ≤ 971) (s : Sign) :
    (packed (.finite s m e hc.pos)).toModel.unpack = .finite s m e hc.pos := by
  obtain ⟨hsign, hmagnitude⟩ := packed_canonical hc he s
  obtain ⟨hne, hfinite⟩ := magnitudeOf_bounds hc he
  rw [← hmagnitude] at hne hfinite
  obtain ⟨hd, -, hsame, -⟩ := canonical_ofMagnitude hne hfinite
  obtain ⟨hm, hexp⟩ := magnitudeOf_inj hd hc (hsame.trans hmagnitude)
  obtain ⟨hpos, hunpack⟩ := unpack_of_finite (decide_eq_true hfinite) hne
  obtain ⟨_, heq⟩ := finite_eq hpos hsign hm hexp
  rw [hunpack, heq]

end

end PeakUsage.Number
