import Mathlib.Tactic.FieldSimp
import Mathlib.Tactic.LinearCombination
import PeakUsage.Json.Reader
import PeakUsage.Proofs.Number.Rounding

/-! Decimals are read as the float that they are rounded to. -/
namespace PeakUsage.Number
open Float.Model Float.Model.UnpackedFloat

/-! ### Quotients -/

theorem locates_exact (n : Nat) : Locates (.ofMantissaAndAccuracy n .exact) n := rfl

/-- A quotient with the rest that it leaves stands for the fraction. -/
theorem locates_div (n : Nat) {d : Nat} (hd : 0 < d) :
    Locates (.ofMantissaAndAccuracy (n / d) (accuracyOfFraction (n % d) d)) ((n : ℚ) / d) := by
  have hd' : (0 : ℚ) < d := by exact_mod_cast hd
  have hx : (n : ℚ) / d = (n / d : Nat) + ((n % d : Nat) : ℚ) / d := by
    have hsum : (n : ℚ) = d * (n / d : Nat) + (n % d : Nat) := by
      exact_mod_cast (Nat.div_add_mod n d).symm
    rw [hsum]
    field_simp
  have hlt : ((n % d : Nat) : ℚ) / d < 1 := by
    rw [div_lt_one hd']
    exact_mod_cast Nat.mod_lt n hd
  rw [hx, accuracyOfFraction]
  generalize n % d = r at hlt ⊢
  by_cases hr : r = 0
  · rw [if_pos hr, hr, Nat.cast_zero, zero_div, add_zero]
    rfl
  · have hpos : (0 : ℚ) < (r : ℚ) / d := by
      have : (0 : ℚ) < r := by exact_mod_cast Nat.pos_of_ne_zero hr
      positivity
    rw [if_neg hr]
    cases hcompare : compare (2 * r) d with
    | lt =>
      have hhalf : (r : ℚ) / d < 1 / 2 := by
        have : (2 : ℚ) * r < d := by exact_mod_cast Nat.compare_eq_lt.mp hcompare
        rw [div_lt_div_iff₀ hd' two_pos]
        linarith
      exact ⟨lt_add_of_pos_right _ hpos, (add_lt_add_iff_left _).mpr hhalf⟩
    | eq =>
      have hhalf : (r : ℚ) / d = 1 / 2 := by
        have : (2 : ℚ) * r = d := by exact_mod_cast Nat.compare_eq_eq.mp hcompare
        rw [div_eq_div_iff hd'.ne' two_ne_zero]
        linarith
      exact congrArg _ hhalf
    | gt =>
      have hhalf : 1 / 2 < (r : ℚ) / d := by
        have : (d : ℚ) < 2 * r := by exact_mod_cast Nat.compare_eq_gt.mp hcompare
        rw [div_lt_div_iff₀ two_pos hd']
        linarith
      exact ⟨(add_lt_add_iff_left _).mpr hhalf, (add_lt_add_iff_left _).mpr hlt⟩

section
variable {m : Nat} {e : Int} {u : ℚ}

/-- The binade of a quotient is bounded by those of its parts. -/
theorem totalExponent_sub_le {m₁ m₂ : Nat} {e₁ e₂ n : Int} (h₁ : 0 < m₁) {q : ℚ}
    (hq : (m₁ : ℚ) * 2 ^ e₁ = q * (m₂ * 2 ^ e₂)) (hlt : q < 2 ^ n) (hpos : 0 < q) :
    totalExponent m₁ e₁ - totalExponent m₂ e₂ ≤ n := by
  have htwo : (2 : ℚ) ≠ 0 := by norm_num
  have hlow : (2 : ℚ) ^ (m₁.log2 + e₁) ≤ m₁ * 2 ^ e₁ := by
    have hself : 2 ^ m₁.log2 ≤ m₁ := Nat.log2_self_le (Nat.ne_of_gt h₁)
    have hself' : (2 : ℚ) ^ m₁.log2 ≤ m₁ := by exact_mod_cast hself
    rw [zpow_add₀ htwo, zpow_natCast]
    exact mul_le_mul_of_nonneg_right hself' (by positivity)
  have hhigh : (m₂ : ℚ) * 2 ^ e₂ < 2 ^ ((m₂.log2 : Int) + 1 + e₂) := by
    have hself : m₂ < 2 ^ (m₂.log2 + 1) := Nat.lt_log2_self
    have hself' : (m₂ : ℚ) < 2 ^ (m₂.log2 + 1) := by exact_mod_cast hself
    rw [zpow_add₀ htwo, show (m₂.log2 : Int) + 1 = ((m₂.log2 + 1 : Nat) : Int) by push_cast; rfl,
      zpow_natCast]
    exact mul_lt_mul_of_pos_right hself' (by positivity)
  have hchain : (2 : ℚ) ^ (m₁.log2 + e₁) < 2 ^ (n + ((m₂.log2 : Int) + 1 + e₂)) := by
    rw [zpow_add₀ htwo n]
    calc (2 : ℚ) ^ (m₁.log2 + e₁) ≤ q * (m₂ * 2 ^ e₂) := hlow.trans hq.le
      _ < q * 2 ^ ((m₂.log2 : Int) + 1 + e₂) := mul_lt_mul_of_pos_left hhigh hpos
      _ ≤ 2 ^ n * 2 ^ ((m₂.log2 : Int) + 1 + e₂) :=
        mul_le_mul_of_nonneg_right hlt.le (by positivity)
  have hexp := (zpow_lt_zpow_iff_right₀ (by norm_num : (1 : ℚ) < 2)).mp hchain
  simp only [totalExponent]
  omega

theorem Catches.self (m : Nat) (e : Int) : Catches m e m := by
  have hbelow : (0 : ℚ) < if m = 2 ^ 52 ∧ -1074 < e then 1 / 4 else 1 / 2 := by
    split <;> norm_num
  unfold Catches
  dsimp only
  split <;> constructor <;> linarith

/-- A quotient that is rounded to a number comes out as that. -/
theorem div_eq (hc : Canonical m e) (hcatch : Catches m e u) {m₁ m₂ : Nat} {e₁ e₂ : Int}
    (h₁ : 0 < m₁) (h₂ : 0 < m₂)
    (hu : (m₁ : ℚ) * 2 ^ e₁ = u * 2 ^ e * (m₂ * 2 ^ e₂)) (s₁ s₂ : Sign) :
    UnpackedFloat.div Format.binary64 (.finite s₁ m₁ e₁ h₁) (.finite s₂ m₂ e₂ h₂) =
      .finite (s₁ / s₂) m e hc.pos := by
  have htwo : (2 : ℚ) ≠ 0 := by norm_num
  have hupos : 0 < u := lt_of_lt_of_le (by norm_num) (hcatch.pos hc)
  have hpow : (0 : ℚ) < 2 ^ e := by positivity
  let t := min (e₁ - e₂)
    (Format.binary64.targetExponent (totalExponent m₁ e₁ - totalExponent m₂ e₂))
  let k := (e₁ - e₂ - t).toNat
  have hk : (k : Int) + t = e₁ - e₂ := by
    have hle : t ≤ e₁ - e₂ := min_le_left _ _
    simp only [k]
    omega
  have hx : ((m₁ <<< k : Nat) : ℚ) / m₂ * 2 ^ t = u * 2 ^ e := by
    have hm₂ : (m₂ : ℚ) ≠ 0 := by exact_mod_cast Nat.ne_of_gt h₂
    have hshift : (2 : ℚ) ^ k * 2 ^ t * 2 ^ e₂ = 2 ^ e₁ := by
      rw [← zpow_natCast, ← zpow_add₀ htwo, ← zpow_add₀ htwo, hk]
      congr 1
      omega
    rw [Nat.shiftLeft_eq, div_mul_eq_mul_div, div_eq_iff hm₂]
    refine mul_right_cancel₀ (zpow_ne_zero e₂ htwo) ?_
    push_cast
    linear_combination (m₁ : ℚ) * hshift + hu
  have hbinade : ∀ n : Int, u < 2 ^ n → totalExponent m₁ e₁ - totalExponent m₂ e₂ ≤ n + e := by
    intro n hn
    refine totalExponent_sub_le h₁ hu ?_ (mul_pos hupos hpow)
    rw [zpow_add₀ htwo]
    exact mul_lt_mul_of_pos_right hn hpow
  have ht : t ≤ max (totalExponent m₁ e₁ - totalExponent m₂ e₂ - 53) (-1074) := min_le_right _ _
  have hexponent := hc.exponent
  refine roundWithAccuracy_eq (locates_div _ h₂) hc hx hcatch ?_ ?_ _
  · have hle := hbinade 53 (by exact_mod_cast hcatch.lt hc)
    omega
  · intro hsmall hne
    have hle := hbinade 52 (by exact_mod_cast hsmall)
    omega

end

/-! ### Natural numbers -/

theorem two_zpow_eq (e : Int) : (2 : ℚ) ^ e = 2 ^ e.toNat / 2 ^ (-e).toNat := by
  rw [← zpow_natCast, ← zpow_natCast, ← zpow_sub₀ two_ne_zero]
  congr 1
  omega

/-- Whether parts are those of a natural number. -/
def isNatural (n : Nat) : UnpackedFloat → Bool
  | .finite .positive m e _ => m * 2 ^ e.toNat = n * 2 ^ (-e).toNat
  | _ => false

theorem exists_of_isNatural {n : Nat} {x : UnpackedFloat} (h : isNatural n x = true) :
    ∃ m e hm, x = .finite .positive m e hm ∧ (m : ℚ) * 2 ^ e = n := by
  unfold isNatural at h
  split at h
  · next m e hm =>
    refine ⟨m, e, hm, rfl, ?_⟩
    have hcast : (m : ℚ) * 2 ^ e.toNat = n * 2 ^ (-e).toNat := by
      exact_mod_cast of_decide_eq_true h
    rw [two_zpow_eq, mul_div_assoc', hcast, mul_div_assoc, div_self (by positivity), mul_one]
  · exact absurd h nofun

/-- The powers of ten that are kept as floats are these powers. -/
theorem isNatural_powersOfTen (p : Fin Float.exactlyRepresentablePowersOfTen.size) :
    isNatural (10 ^ p.val) Float.exactlyRepresentablePowersOfTen[p].toModel.unpack = true := by
  revert p
  decide +kernel

/-- A natural number of 53 bits fills a mantissa when shifted to the left. -/
theorem canonical_shifted {M k : Nat} (hM : 0 < M) (hk : M.log2 + k = 52) :
    Canonical (M * 2 ^ k) (-k) := by
  have hlow : 2 ^ M.log2 ≤ M := Nat.log2_self_le (Nat.ne_of_gt hM)
  have hhigh : M < 2 ^ (M.log2 + 1) := Nat.lt_log2_self
  refine ⟨by positivity, ?_, by omega, .inl ?_⟩
  · calc M * 2 ^ k < 2 ^ (M.log2 + 1) * 2 ^ k := Nat.mul_lt_mul_of_pos_right hhigh (by positivity)
      _ = 2 ^ 53 := by rw [← pow_add, Nat.add_right_comm, hk]
  · calc 2 ^ 52 = 2 ^ M.log2 * 2 ^ k := by rw [← pow_add, hk]
      _ ≤ M * 2 ^ k := Nat.mul_le_mul_right _ hlow

theorem ofNat_eq {M k : Nat} (hM : 0 < M) (hk : M.log2 + k = 52) :
    UnpackedFloat.ofNat Format.binary64 M =
      .finite .positive (M * 2 ^ k) (-k) (canonical_shifted hM hk).pos := by
  have hc := canonical_shifted hM hk
  have hcompare : compare (M : Int) 0 = .gt := Int.compare_eq_gt.mpr (by omega)
  have hshift : decreaseExponent M 0 (Format.binary64.targetExponent (totalExponent M 0)) =
      (M * 2 ^ k, -(k : Int)) := by
    have hamount : (0 - Format.binary64.targetExponent (totalExponent M 0)).toNat = k := by
      rw [targetExponent_eq, totalExponent]
      omega
    rw [decreaseExponent, hamount, Nat.shiftLeft_eq]
    exact Prod.ext rfl (Int.zero_sub _)
  rw [UnpackedFloat.ofNat, UnpackedFloat.ofInt, UnpackedFloat.normalize, hcompare]
  simp only [Int.toNat_natCast, UnpackedFloat.round, hshift]
  refine roundWithAccuracy_eq (locates_exact _) hc rfl (.self _ _) le_rfl ?_ .positive
  intro hsmall
  have hnormal : 2 ^ 52 ≤ M * 2 ^ k := hc.normal.resolve_right (by omega)
  have hnormal' : (2 : ℚ) ^ 52 ≤ (M * 2 ^ k : Nat) := by exact_mod_cast hnormal
  exact absurd hsmall (not_lt.mpr hnormal')

/-- A natural number that fits into a mantissa is kept as it is. -/
theorem unpack_toFloat {M : Nat} (hM : 0 < M) (hlt : M < 2 ^ 53) :
    ∃ m e, ∃ hc : Canonical m e, e ≤ 0 ∧ (m : ℚ) * 2 ^ e = M ∧
      M.toUInt64.toFloat.toModel.unpack = .finite .positive m e hc.pos := by
  have hlog : M.log2 < 53 := (Nat.log2_lt (Nat.ne_of_gt hM)).mpr hlt
  obtain ⟨k, hk⟩ : ∃ k, M.log2 + k = 52 := ⟨52 - M.log2, by omega⟩
  have hc := canonical_shifted hM hk
  have hsize : M.toUInt64.toNat = M := Nat.mod_eq_of_lt (by omega)
  have hfloat : M.toUInt64.toFloat =
      packed (UnpackedFloat.ofNat Format.binary64 M.toUInt64.toNat) := rfl
  refine ⟨M * 2 ^ k, -k, hc, by omega, ?_, ?_⟩
  · push_cast
    rw [zpow_neg, zpow_natCast, mul_assoc, mul_inv_cancel₀ (by positivity), mul_one]
  · rw [hfloat, hsize, ofNat_eq hM hk]
    exact unpack_packed hc (by omega) .positive

/-! ### Decimals -/

section
variable {m : Nat} {e : Int} {u : ℚ} {M p : Nat}

/-- The decimal `M / 10 ^ p` is `u` in units of `2 ^ e`. -/
def IsDecimal (M p : Nat) (u : ℚ) (e : Int) : Prop := (M : ℚ) = u * 2 ^ e * 10 ^ p

theorem IsDecimal.pos (h : IsDecimal M p u e) (hu : 0 < u) : 0 < M := by
  have hpos : (0 : ℚ) < M := by
    rw [h]
    positivity
  exact_mod_cast hpos

theorem lt_mul_of_catches (hc : Canonical m e) (hcatch : Catches m e u) :
    (2 : ℚ) ^ (-1075 : Int) ≤ u * 2 ^ e := by
  have hhalf : (2 : ℚ) ^ (-1 : Int) ≤ u := by
    rw [zpow_neg_one]
    linarith [hcatch.pos hc]
  have hpow : (2 : ℚ) ^ (-1074 : Int) ≤ 2 ^ e :=
    zpow_le_zpow_right₀ (by norm_num) hc.exponent
  calc (2 : ℚ) ^ (-1075 : Int) = 2 ^ (-1 : Int) * 2 ^ (-1074 : Int) := by
        rw [← zpow_add₀ two_ne_zero]
        rfl
    _ ≤ u * 2 ^ e := mul_le_mul hhalf hpow (by positivity) (le_trans (by positivity) hhalf)

/-- A decimal has fewer places than would make it too small for a float. -/
theorem IsDecimal.places_lt (hc : Canonical m e) (hcatch : Catches m e u)
    (h : IsDecimal M p u e) : p < M.log2 + 1076 := by
  have hself : M < 2 ^ (M.log2 + 1) := Nat.lt_log2_self
  have hself' : (M : ℚ) < 2 ^ (M.log2 + 1) := by exact_mod_cast hself
  have hten : (2 : ℚ) ^ p ≤ 10 ^ p := by gcongr; norm_num
  have hchain : (2 : ℚ) ^ ((p : Int) + -1075) < 2 ^ ((M.log2 + 1 : Nat) : Int) := by
    rw [zpow_natCast]
    refine lt_of_le_of_lt ?_ hself'
    rw [h, zpow_add₀ two_ne_zero, zpow_natCast, mul_comm]
    exact mul_le_mul (lt_mul_of_catches hc hcatch) hten (by positivity)
      (le_trans (by positivity) (lt_mul_of_catches hc hcatch))
  have hexp := (zpow_lt_zpow_iff_right₀ (by norm_num : (1 : ℚ) < 2)).mp hchain
  push_cast at hexp
  omega

/-- A decimal with places behind the point is read as the number that it is rounded to. -/
theorem ofScientific_eq (hc : Canonical m e) (hcatch : Catches m e u) (hp : 0 < p)
    (h : IsDecimal M p u e) :
    Float.ofScientific M true p = packed (.finite .positive m e hc.pos) := by
  have hM : 0 < M := h.pos (lt_of_lt_of_le (by norm_num) (hcatch.pos hc))
  rw [Float.ofScientific]
  split
  · next hfast =>
    obtain ⟨m₁, e₁, hc₁, -, hvalue, hfloat⟩ := unpack_toFloat hM hfast.1
    obtain ⟨m₂, e₂, h₂, hpower, hten⟩ :=
      exists_of_isNatural (isNatural_powersOfTen ⟨p, Nat.lt_succ_of_le hfast.2⟩)
    simp only [if_true]
    refine congrArg packed ((congrArg₂ (UnpackedFloat.div Format.binary64) hfloat hpower).trans
      (div_eq hc hcatch hc₁.pos h₂ ?_ .positive .positive))
    rw [hvalue, hten, h]
    push_cast
    rfl
  · simp only [if_true]
    change packed (UnpackedFloat.ofScientific Format.binary64 M (Int.negOfNat p)) = _
    have hneg : Int.negOfNat p = -(p : Int) := Int.negOfNat_eq
    have hbits : (2 : Int) ^ Format.binary64.exponentBits = 2048 := rfl
    have hplaces := h.places_lt hc hcatch
    rw [hneg, UnpackedFloat.ofScientific, dif_neg (Nat.ne_of_gt hM), if_neg (by omega),
      if_neg (by omega), if_neg (by omega)]
    simp only [Int.neg_neg, Int.toNat_natCast]
    refine congrArg packed (div_eq hc hcatch _ _ ?_ .positive .positive)
    rw [h]
    push_cast
    simp

/-- The digits of a decimal bound its size by powers of ten. -/
theorem length_toDigits_bounds (hM : 0 < M) :
    0 < (Nat.toDigits 10 M).length ∧ 10 ^ ((Nat.toDigits 10 M).length - 1) ≤ M ∧
      M < 10 ^ (Nat.toDigits 10 M).length := by
  have hpos : 0 < (Nat.toDigits 10 M).length := Nat.length_toDigits_pos
  refine ⟨hpos, ?_, (Nat.length_toDigits_le_iff (by norm_num) hpos).mp le_rfl⟩
  rcases Nat.eq_zero_or_pos ((Nat.toDigits 10 M).length - 1) with hzero | hmore
  · rw [hzero]
    exact hM
  · refine Nat.le_of_not_lt fun hlt => ?_
    have hle := (Nat.length_toDigits_le_iff (by norm_num) hmore).mpr hlt
    omega

/-- A decimal that is not too small has a numerator that is not too small for its places. -/
theorem IsDecimal.pow_le {k : Nat} (h : IsDecimal M p u e) (hk : (2 : ℚ) ^ (-k : Int) ≤ u * 2 ^ e) :
    10 ^ p ≤ M * 2 ^ k := by
  have hone : (1 : ℚ) ≤ u * 2 ^ e * 2 ^ k := by
    rwa [zpow_neg, zpow_natCast, inv_le_iff_one_le_mul₀ (by positivity)] at hk
  have hle : (10 : ℚ) ^ p ≤ M * 2 ^ k := by
    rw [h]
    calc (10 : ℚ) ^ p = 1 * 10 ^ p := (one_mul _).symm
      _ ≤ u * 2 ^ e * 2 ^ k * 10 ^ p := mul_le_mul_of_nonneg_right hone (by positivity)
      _ = u * 2 ^ e * 10 ^ p * 2 ^ k := by ring
  exact_mod_cast hle

/-- A decimal that is not too great has a numerator that is not too great for its places. -/
theorem IsDecimal.lt_pow {k : Nat} (h : IsDecimal M p u e) (hk : u * 2 ^ e < (2 : ℚ) ^ k) :
    M < 2 ^ k * 10 ^ p := by
  have hlt : (M : ℚ) < 2 ^ k * 10 ^ p := by
    rw [h]
    exact mul_lt_mul_of_pos_right hk (by positivity)
  exact_mod_cast hlt

/-- A number is read from any decimal that is rounded to it and has places behind the point. -/
theorem nearestReal_eq (hc : Canonical m e) (he : e ≤ 971) (hcatch : Catches m e u) (hp : 0 < p)
    (h : IsDecimal M p u e) :
    Json.nearestReal M (-p) = packed (.finite .positive m e hc.pos) := by
  have hM : 0 < M := h.pos (lt_of_lt_of_le (by norm_num) (hcatch.pos hc))
  obtain ⟨hdigits, hlow, hhigh⟩ := length_toDigits_bounds hM
  have hsmall : p < (Nat.toDigits 10 M).length + 324 := by
    have hten : 2 ^ 1075 ≤ 10 ^ 324 := by decide +kernel
    refine (Nat.pow_lt_pow_iff_right (by norm_num : 1 < 10)).mp ?_
    calc 10 ^ p ≤ M * 2 ^ 1075 := h.pow_le (lt_mul_of_catches hc hcatch)
      _ < 10 ^ (Nat.toDigits 10 M).length * 10 ^ 324 :=
        Nat.mul_lt_mul_of_lt_of_le hhigh hten (Nat.lt_of_lt_of_le (Nat.two_pow_pos _) hten)
      _ = 10 ^ ((Nat.toDigits 10 M).length + 324) := (pow_add ..).symm
  have hbig : (Nat.toDigits 10 M).length < p + 310 := by
    have hten : 2 ^ 1024 ≤ 10 ^ 309 := by decide +kernel
    have hlt : u * 2 ^ e < (2 : ℚ) ^ 1024 := by
      calc u * 2 ^ e < 2 ^ 53 * 2 ^ e := mul_lt_mul_of_pos_right (hcatch.lt hc) (by positivity)
        _ ≤ 2 ^ 53 * 2 ^ (971 : Int) :=
          mul_le_mul_of_nonneg_left (zpow_le_zpow_right₀ (by norm_num) he) (by positivity)
        _ = 2 ^ 1024 := by rw [zpow_ofNat, ← pow_add]
    have hexp : (Nat.toDigits 10 M).length - 1 < 309 + p := by
      refine (Nat.pow_lt_pow_iff_right (by norm_num : 1 < 10)).mp ?_
      calc 10 ^ ((Nat.toDigits 10 M).length - 1) ≤ M := hlow
        _ < 2 ^ 1024 * 10 ^ p := h.lt_pow hlt
        _ ≤ 10 ^ 309 * 10 ^ p := Nat.mul_le_mul_right _ hten
        _ = 10 ^ (309 + p) := (pow_add ..).symm
    omega
  rw [Json.nearestReal, if_neg (by omega), if_neg (by omega), if_neg (by omega), Int.neg_neg,
    Int.toNat_natCast]
  exact ofScientific_eq hc hcatch hp h

end

end PeakUsage.Number
