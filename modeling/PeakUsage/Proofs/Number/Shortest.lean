import PeakUsage.Proofs.Number.Reading

/-! The shortest decimal of a number is found, and is read back as the number. -/
namespace PeakUsage.Number

theorem ten_zpow_eq (k : Int) : (10 : ℚ) ^ k = 10 ^ k.toNat / 10 ^ (-k).toNat := by
  rw [← zpow_natCast, ← zpow_natCast, ← zpow_sub₀ (by norm_num)]
  congr 1
  omega

namespace Scaled
variable {s : Scaled} {k : Int} {c : Nat}

theorem den_pos (s : Scaled) (k : Int) : 0 < s.den k :=
  Nat.mul_pos (Nat.pow_pos Nat.two_pos) (Nat.pow_pos (by decide))

/-- A quarter of a unit in the last place as a multiple of `10 ^ k`. -/
theorem quarter_div_den (s : Scaled) (k : Int) :
    (s.quarter k : ℚ) * (4 * 10 ^ k) = s.den k * 2 ^ s.exponent := by
  have hfour : (2 : ℚ) ^ s.exponent = 4 * 2 ^ (s.exponent - 2) := by
    rw [zpow_sub₀ two_ne_zero]
    norm_num
    ring
  have htwo := two_zpow_eq (s.exponent - 2)
  have hneg : -(s.exponent - 2) = 2 - s.exponent := by omega
  rw [hneg] at htwo
  rw [hfour, htwo, ten_zpow_eq k]
  simp only [quarter, den, Nat.pow_eq]
  push_cast
  field_simp

theorem quarter_pos (s : Scaled) (k : Int) : 0 < s.quarter k :=
  Nat.mul_pos (Nat.pow_pos Nat.two_pos) (Nat.pow_pos (by decide))

/-- A multiple of `10 ^ k` counted in quarters of a unit in the last place. -/
theorem mul_den_eq {u : ℚ} (hu : (c : ℚ) * 10 ^ k = u * 2 ^ s.exponent) :
    (c : ℚ) * s.den k = 4 * u * s.quarter k := by
  have hquarter := s.quarter_div_den k
  refine mul_right_cancel₀ (zpow_ne_zero s.exponent (two_ne_zero (α := ℚ))) ?_
  linear_combination 4 * (s.quarter k : ℚ) * hu - (c : ℚ) * hquarter

/-- How far the numbers reach down that are rounded to the number. -/
def WellFormed (s : Scaled) : Prop :=
  s.below = if s.mantissa = 2 ^ 52 ∧ -1074 < s.exponent then 1 else 2

/-- What is covered is rounded to the number. -/
theorem covers_iff (hs : s.WellFormed) (hpos : 0 < s.mantissa) {u : ℚ}
    (hu : (c : ℚ) * 10 ^ k = u * 2 ^ s.exponent) :
    s.covers k c = true ↔ Catches s.mantissa s.exponent u := by
  have hquarter : (0 : ℚ) < s.quarter k := by exact_mod_cast s.quarter_pos k
  have hle : s.below ≤ 4 * s.mantissa := by
    rw [hs]
    split <;> omega
  have hbelow : (s.below : ℚ) / 4 =
      if s.mantissa = 2 ^ 52 ∧ -1074 < s.exponent then 1 / 4 else 1 / 2 := by
    rw [hs]
    split <;> norm_num
  have hlow : (((4 * s.mantissa - s.below) * s.quarter k : Nat) : ℚ) =
      4 * (s.mantissa - s.below / 4) * s.quarter k := by
    push_cast [Nat.cast_sub hle]
    ring
  have hhigh : (((4 * s.mantissa + 2) * s.quarter k : Nat) : ℚ) =
      4 * (s.mantissa + 1 / 2) * s.quarter k := by
    push_cast
    ring
  have hx : ((c * s.den k : Nat) : ℚ) = 4 * u * s.quarter k := by
    push_cast
    exact mul_den_eq hu
  unfold covers Catches
  dsimp only
  rw [← hbelow]
  split
  · rw [Bool.and_eq_true, decide_eq_true_eq, decide_eq_true_eq, ← Nat.cast_le (α := ℚ),
      ← Nat.cast_le (α := ℚ), hlow, hhigh, hx, mul_le_mul_iff_left₀ hquarter,
      mul_le_mul_iff_left₀ hquarter, mul_le_mul_iff_right₀ four_pos, mul_le_mul_iff_right₀ four_pos]
  · rw [Bool.and_eq_true, decide_eq_true_eq, decide_eq_true_eq, ← Nat.cast_lt (α := ℚ),
      ← Nat.cast_lt (α := ℚ), hlow, hhigh, hx, mul_lt_mul_iff_left₀ hquarter,
      mul_lt_mul_iff_left₀ hquarter, mul_lt_mul_iff_right₀ four_pos, mul_lt_mul_iff_right₀ four_pos]

theorem covers_of_candidate (h : s.candidate k = some c) : s.covers k c = true := by
  unfold candidate at h
  dsimp only at h
  split at h
  · split at h <;> obtain rfl := Option.some.inj h <;> assumption
  · obtain rfl := Option.some.inj h
    assumption
  · obtain rfl := Option.some.inj h
    assumption
  · exact absurd h nofun

/-- The scan ends on a decimal that is covered, if there is one within its reach. -/
theorem covers_scan {fuel : Nat} {i : Nat} (hi : i < fuel)
    (hsome : (s.candidate (k - i)).isSome = true) :
    s.covers (s.scan fuel k).2 (s.scan fuel k).1 = true := by
  induction fuel generalizing k i with
  | zero => exact absurd hi (Nat.not_lt_zero i)
  | succ fuel ih =>
    rw [scan]
    cases hc : s.candidate k with
    | some c => exact covers_of_candidate hc
    | none =>
      cases i with
      | zero =>
        rw [Int.natCast_zero, Int.sub_zero, hc] at hsome
        exact absurd hsome nofun
      | succ i =>
        refine ih (Nat.lt_of_succ_lt_succ hi) ?_
        rwa [Int.sub_sub, Int.add_comm 1, ← Int.natCast_succ]

theorem WellFormed.below_bounds (hs : s.WellFormed) (hpos : 0 < s.mantissa) :
    0 < s.below ∧ s.below ≤ 4 * s.mantissa := by
  rw [hs]
  split <;> omega

/-- On a grid that is fine enough the multiple below the number is covered. -/
theorem isSome_candidate (hs : s.WellFormed) (hpos : 0 < s.mantissa)
    (hfine : s.den k ≤ s.quarter k) : (s.candidate k).isSome = true := by
  have hcovers : s.covers k (4 * s.mantissa * s.quarter k / s.den k) = true := by
    obtain ⟨hbelow, hmost⟩ := hs.below_bounds hpos
    have hle := Nat.div_mul_le_self (4 * s.mantissa * s.quarter k) (s.den k)
    have hlt := Nat.lt_div_mul_add (a := 4 * s.mantissa * s.quarter k) (s.den_pos k)
    have hquarter := s.quarter_pos k
    have hmul : s.quarter k ≤ s.below * s.quarter k := Nat.le_mul_of_pos_left _ hbelow
    have hmul' : s.below * s.quarter k ≤ 4 * s.mantissa * s.quarter k :=
      Nat.mul_le_mul_right _ hmost
    unfold covers
    dsimp only
    rw [Nat.sub_mul, Nat.add_mul]
    split <;> simp only [Bool.and_eq_true, decide_eq_true_eq] <;> omega
  unfold candidate
  dsimp only
  rw [hcovers]
  cases s.covers k (4 * s.mantissa * s.quarter k / s.den k + 1) with
  | false => rfl
  | true =>
    dsimp only
    split <;> rfl

/-- A power of ten is at most a power of two if the exponents say so with some room. -/
theorem ten_zpow_le {n a : Int} (hpos : 0 ≤ n → 196 * n ≤ 59 * a)
    (hneg : n ≤ 0 → 93 * n ≤ 28 * a) : (10 : ℚ) ^ n ≤ 2 ^ a := by
  have htwo : (1 : ℚ) ≤ 2 := by norm_num
  have hswap (x : ℚ) (n : Int) (k : Nat) : (x ^ n) ^ k = (x ^ k) ^ n := by
    rw [← zpow_natCast, ← zpow_natCast, ← zpow_mul, ← zpow_mul, mul_comm]
  have htimes (k : Nat) (n : Int) : ((2 : ℚ) ^ k) ^ n = 2 ^ (k * n) := by
    rw [← zpow_natCast, ← zpow_mul]
  rcases le_total 0 n with hn | hn
  · refine (pow_le_pow_iff_left₀ (by positivity) (by positivity) (by norm_num : 59 ≠ 0)).mp ?_
    calc ((10 : ℚ) ^ n) ^ 59 = (10 ^ 59) ^ n := hswap ..
      _ ≤ (2 ^ 196) ^ n := zpow_le_zpow_left₀ hn (by positivity) (by norm_num)
      _ = 2 ^ (196 * n) := htimes ..
      _ ≤ 2 ^ (59 * a) := zpow_le_zpow_right₀ htwo (hpos hn)
      _ = (2 ^ a) ^ 59 := by rw [hswap, htimes]; rfl
  · refine (pow_le_pow_iff_left₀ (by positivity) (by positivity) (by norm_num : 28 ≠ 0)).mp ?_
    calc ((10 : ℚ) ^ n) ^ 28 = (10 ^ 28) ^ n := hswap ..
      _ ≤ (2 ^ 93) ^ n := by
        obtain ⟨k, rfl⟩ := Int.exists_eq_neg_ofNat hn
        rw [zpow_neg, zpow_neg, zpow_natCast, zpow_natCast]
        exact inv_anti₀ (by positivity) (pow_le_pow_left₀ (by positivity) (by norm_num) k)
      _ = 2 ^ (93 * n) := htimes ..
      _ ≤ 2 ^ (28 * a) := zpow_le_zpow_right₀ htwo (hneg hn)
      _ = (2 ^ a) ^ 28 := by rw [hswap, htimes]; rfl

/-- The last grid of the scan is fine enough. -/
theorem den_le_quarter (hc : Canonical s.mantissa s.exponent) (he : s.exponent ≤ 971) :
    s.den (s.topExponent - 23) ≤ s.quarter (s.topExponent - 23) := by
  have hlog : s.mantissa.log2 < 53 := (Nat.log2_lt (Nat.ne_of_gt hc.pos)).mpr hc.lt
  have hexponent := hc.exponent
  have hten : (10 : ℚ) ^ (s.topExponent - 23) ≤ 2 ^ (s.exponent - 2) := by
    refine ten_zpow_le ?_ ?_ <;> simp only [topExponent] <;> intro _ <;> omega
  have hquarter := s.quarter_div_den (s.topExponent - 23)
  have hfour : (2 : ℚ) ^ s.exponent = 2 ^ (s.exponent - 2) * 4 := by
    rw [zpow_sub₀ two_ne_zero]
    norm_num
  have hle : (s.den (s.topExponent - 23) : ℚ) ≤ s.quarter (s.topExponent - 23) := by
    refine le_of_mul_le_mul_right ?_ (by positivity : (0 : ℚ) < 2 ^ (s.exponent - 2))
    calc (s.den (s.topExponent - 23) : ℚ) * 2 ^ (s.exponent - 2) =
          s.quarter (s.topExponent - 23) * 10 ^ (s.topExponent - 23) := by
          rw [hfour] at hquarter
          linarith
      _ ≤ s.quarter (s.topExponent - 23) * 2 ^ (s.exponent - 2) :=
        mul_le_mul_of_nonneg_left hten (by positivity)
  exact_mod_cast hle

/-- The shortest decimal of a number is rounded to it. -/
theorem covers_shortest (hs : s.WellFormed) (hc : Canonical s.mantissa s.exponent)
    (he : s.exponent ≤ 971) : s.covers s.shortest.2 s.shortest.1 = true :=
  covers_scan (i := 23) (by norm_num) (isSome_candidate hs hc.pos (den_le_quarter hc he))

end Scaled

end PeakUsage.Number
