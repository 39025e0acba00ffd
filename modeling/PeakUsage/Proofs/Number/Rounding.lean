import Mathlib.Algebra.Order.Field.Power
import Mathlib.Algebra.Order.Field.Rat
import Mathlib.Tactic.Linarith
import Mathlib.Tactic.NormNum
import Mathlib.Tactic.Positivity
import Mathlib.Tactic.Ring
import PeakUsage.Proofs.Number.Packing

/-! Rounding to the nearest binary64 number, of two equally near to the even one: which numbers are
rounded to a given one. -/
namespace PeakUsage.Number
open Float.Model Float.Model.UnpackedFloat

/-! ### Mantissas with the bits behind them -/

/-- What a mantissa with a round bit and a sticky bit says of a number. -/
def Locates (em : ExtendedMantissa) (x : ℚ) : Prop :=
  match em.roundBit, em.stickyBit with
  | false, false => x = em.mantissa
  | false, true => em.mantissa < x ∧ x < em.mantissa + 1 / 2
  | true, false => x = em.mantissa + 1 / 2
  | true, true => em.mantissa + 1 / 2 < x ∧ x < em.mantissa + 1

/-- A natural number is the nearest to a number, and the even one if another is as near. -/
def Nearest (n : Nat) (x : ℚ) : Prop :=
  if n % 2 = 0 then n - 1 / 2 ≤ x ∧ x ≤ n + 1 / 2 else n - 1 / 2 < x ∧ x < n + 1 / 2

namespace Nearest
variable {m n : Nat} {x : ℚ}

theorem bounds (h : Nearest n x) : (n : ℚ) - 1 / 2 ≤ x ∧ x ≤ n + 1 / 2 := by
  unfold Nearest at h
  split at h
  · exact h
  · exact ⟨h.1.le, h.2.le⟩

theorem eq_of_lt_half (h : Nearest n x) (hlower : (m : ℚ) ≤ x) (hupper : x < m + 1 / 2) :
    n = m := by
  obtain ⟨hlow, hhigh⟩ := h.bounds
  have hle : (n : ℚ) < m + 1 := by linarith
  have hge : 2 * (m : ℚ) ≤ 2 * n + 1 := by linarith
  have hle' : n < m + 1 := by exact_mod_cast hle
  have hge' : 2 * m ≤ 2 * n + 1 := by exact_mod_cast hge
  omega

/-- Halfway between two neighbours the even one is nearest. -/
theorem eq_of_half (h : Nearest n x) (hx : x = m + 1 / 2) : n = m + m % 2 := by
  obtain ⟨hlow, hhigh⟩ := h.bounds
  have heven : n % 2 = 0 := by
    by_contra hodd
    rw [Nearest, if_neg hodd] at h
    have hlt : (n : ℚ) < m + 1 := by linarith
    have hgt : (m : ℚ) < n := by linarith
    have hlt' : n < m + 1 := by exact_mod_cast hlt
    have hgt' : m < n := by exact_mod_cast hgt
    omega
  have hle : (n : ℚ) ≤ m + 1 := by linarith
  have hge : (m : ℚ) ≤ n := by linarith
  have hle' : n ≤ m + 1 := by exact_mod_cast hle
  have hge' : m ≤ n := by exact_mod_cast hge
  omega

theorem eq_of_half_lt (h : Nearest n x) (hlower : (m : ℚ) + 1 / 2 < x) (hupper : x < m + 1) :
    n = m + 1 := by
  obtain ⟨hlow, hhigh⟩ := h.bounds
  have hle : 2 * (n : ℚ) < 2 * m + 3 := by linarith
  have hge : (m : ℚ) < n := by linarith
  have hle' : 2 * n < 2 * m + 3 := by exact_mod_cast hle
  have hge' : m < n := by exact_mod_cast hge
  omega

end Nearest

namespace Locates
variable {em : ExtendedMantissa} {x : ℚ}

theorem bounds (h : Locates em x) : (em.mantissa : ℚ) ≤ x ∧ x < em.mantissa + 1 := by
  obtain ⟨m, r, s⟩ := em
  cases r <;> cases s <;> simp only [Locates] at h ⊢ <;> constructor <;> linarith

theorem shiftRightOne (h : Locates em x) : Locates em.shiftRightOne (x / 2) := by
  obtain ⟨m, r, s⟩ := em
  have hm : ((m % 2 : Nat) : ℚ) + 2 * ((m / 2 : Nat) : ℚ) = m := by
    exact_mod_cast Nat.mod_add_div m 2
  rcases Nat.mod_two_eq_zero_or_one m with hmod | hmod <;> rw [hmod] at hm <;> push_cast at hm <;>
    cases r <;> cases s <;>
    simp_all [Locates, ExtendedMantissa.shiftRightOne] <;>
    (try constructor) <;> linarith

theorem shiftRight (h : Locates em x) (k : Nat) : Locates (em >>> k) (x / 2 ^ k) := by
  change Locates (k.repeat ExtendedMantissa.shiftRightOne em) _
  induction k with
  | zero => simpa [Nat.repeat] using h
  | succ k ih =>
    rw [Nat.repeat, pow_succ, ← div_div]
    exact ih.shiftRightOne

/-- A mantissa is rounded to the natural number that is nearest to what it stands for. -/
theorem roundedMantissa (h : Locates em x) {n : Nat} (hn : Nearest n x) :
    em.roundedMantissa = n := by
  obtain ⟨m, r, s⟩ := em
  cases r with
  | false =>
    have hlower : (m : ℚ) ≤ x := h.bounds.1
    have hupper : x < m + 1 / 2 := by
      cases s <;> simp only [Locates] at h <;> linarith
    have hround : (⟨m, false, s⟩ : ExtendedMantissa).roundedMantissa = m := by cases s <;> rfl
    exact hround.trans (hn.eq_of_lt_half hlower hupper).symm
  | true =>
    cases s with
    | false => exact (hn.eq_of_half h).symm
    | true => exact (hn.eq_of_half_lt h.1 h.2).symm

end Locates

/-! ### What is rounded to a number -/

/-- The numbers that are rounded to `m * 2 ^ e`, in units of `2 ^ e`. The numbers below a power of
two are half as far apart as those above. -/
def Catches (m : Nat) (e : Int) (u : ℚ) : Prop :=
  let below : ℚ := if m = 2 ^ 52 ∧ -1074 < e then 1 / 4 else 1 / 2
  if m % 2 = 0 then m - below ≤ u ∧ u ≤ m + 1 / 2 else m - below < u ∧ u < m + 1 / 2

theorem targetExponent_eq (n : Int) :
    Format.binary64.targetExponent n = max (n - 53) (-1074) := by
  rfl

section
variable {M m : Nat} {t e : Int} {a : Accuracy} {x : ℚ}

theorem log2_bounds (hM : M ≠ 0) (hx : (M : ℚ) ≤ x ∧ x < M + 1) :
    (2 : ℚ) ^ (M.log2 : Int) ≤ x ∧ x < 2 ^ (M.log2 + 1 : Int) := by
  have hlow : 2 ^ M.log2 ≤ M := Nat.log2_self_le hM
  have hhigh : M + 1 ≤ 2 ^ (M.log2 + 1) := Nat.lt_log2_self
  have hlow' : (2 : ℚ) ^ M.log2 ≤ M := by exact_mod_cast hlow
  have hhigh' : (M : ℚ) + 1 ≤ 2 ^ (M.log2 + 1) := by exact_mod_cast hhigh
  rw [zpow_natCast, show (M.log2 + 1 : Int) = ((M.log2 + 1 : Nat) : Int) by push_cast; rfl,
    zpow_natCast]
  exact ⟨hlow'.trans hx.1, hx.2.trans_le hhigh'⟩

/-- The exponent that a mantissa is shifted to is that of the binade of what it stands for. -/
theorem max_target_eq (hx : (M : ℚ) ≤ x ∧ x < M + 1) (hte : t ≤ e) (he : -1074 ≤ e)
    (hlow : (2 : ℚ) ^ (52 + e) ≤ x * 2 ^ t ∨ e = -1074) (hhigh : x * 2 ^ t < 2 ^ (53 + e)) :
    max t (max (M.log2 + 1 + t - 53) (-1074)) = e := by
  have htwo : (1 : ℚ) < 2 := by norm_num
  have hpos : (0 : ℚ) < 2 ^ t := by positivity
  by_cases hM : M = 0
  · have hlt : x * 2 ^ t < 2 ^ t := by
      rw [hM, Nat.cast_zero, zero_add] at hx
      exact (mul_lt_iff_lt_one_left hpos).mpr hx.2
    have hlog : Nat.log2 0 = 0 := rfl
    rw [hM, hlog]
    rcases hlow with hlow | rfl
    · have hexp : 52 + e < t := (zpow_lt_zpow_iff_right₀ htwo).mp (hlow.trans_lt hlt)
      omega
    · omega
  · obtain ⟨hxlow, hxhigh⟩ := log2_bounds hM hx
    have hupper : (M.log2 : Int) + t < 53 + e := by
      refine (zpow_lt_zpow_iff_right₀ htwo).mp (lt_of_le_of_lt ?_ hhigh)
      rw [zpow_add₀ (by norm_num)]
      exact mul_le_mul_of_nonneg_right hxlow hpos.le
    rcases hlow with hlow | rfl
    · have hlower : 52 + e < (M.log2 + 1 : Int) + t := by
        refine (zpow_lt_zpow_iff_right₀ htwo).mp (lt_of_le_of_lt hlow ?_)
        rw [zpow_add₀ (by norm_num) (M.log2 + 1 : Int)]
        exact mul_lt_mul_of_pos_right hxhigh hpos
      omega
    · omega

theorem Canonical.target (hc : Canonical m e) :
    Format.binary64.targetExponent (totalExponent m e) = e := by
  have hm : m ≠ 0 := Nat.ne_of_gt hc.pos
  obtain ⟨-, hlt, he, hnormal⟩ := hc
  have hlog : m.log2 < 53 := (Nat.log2_lt hm).mpr hlt
  rw [targetExponent_eq, totalExponent]
  rcases hnormal with hnormal | rfl
  · have hlog' : 52 ≤ m.log2 := (Nat.le_log2 hm).mpr hnormal
    omega
  · omega

/-- The first shift of a mantissa: what it leaves stands for the number in units of `2 ^ e`. -/
theorem shiftToTargetExponent_eq (hx : Locates (.ofMantissaAndAccuracy M a) x) (hte : t ≤ e)
    (he : -1074 ≤ e) {u : ℚ} (hu : x * 2 ^ t = u * 2 ^ e) (hlow : 2 ^ 52 ≤ u ∨ e = -1074)
    (hhigh : u < 2 ^ 53) :
    ∃ em, shiftToTargetExponent Format.binary64 M t a = (em, e) ∧ Locates em u := by
  have htwo : (2 : ℚ) ≠ 0 := by norm_num
  have hpos : (0 : ℚ) < 2 ^ e := by positivity
  have hmantissa : (ExtendedMantissa.ofMantissaAndAccuracy M a).mantissa = M := by
    cases a with
    | exact => rfl
    | inexact o => cases o <;> rfl
  have hbounds := hx.bounds
  rw [hmantissa] at hbounds
  have hmax : max t (max ((M.log2 : Int) + 1 + t - 53) (-1074)) = e := by
    refine max_target_eq hbounds hte he (hlow.imp_left fun h => ?_) ?_
    · rw [hu, zpow_add₀ htwo]
      exact mul_le_mul_of_nonneg_right (by exact_mod_cast h) hpos.le
    · rw [hu, zpow_add₀ htwo]
      exact mul_lt_mul_of_pos_right (by exact_mod_cast hhigh) hpos
  let k := (max ((M.log2 : Int) + 1 + t - 53) (-1074) - t).toNat
  have hk : t + (k : Int) = e := by
    simp only [k]
    omega
  refine ⟨ExtendedMantissa.ofMantissaAndAccuracy M a >>> k, Prod.ext rfl hk, ?_⟩
  have hu' : x / 2 ^ k = u := by
    rw [div_eq_iff (by positivity)]
    refine mul_right_cancel₀ (zpow_ne_zero t htwo) ?_
    rw [hu, mul_assoc, ← zpow_natCast, ← zpow_add₀ htwo, add_comm (k : Int), hk]
  rw [← hu']
  exact hx.shiftRight k

theorem Catches.nearest {u : ℚ} (h : Catches m e u) : Nearest m u := by
  have hbelow : (if m = 2 ^ 52 ∧ -1074 < e then 1 / 4 else 1 / 2 : ℚ) ≤ 1 / 2 := by
    split <;> norm_num
  unfold Catches at h
  unfold Nearest
  dsimp only at h
  split at h
  · rw [if_pos ‹_›]
    exact ⟨by linarith [h.1], h.2⟩
  · rw [if_neg ‹_›]
    exact ⟨by linarith [h.1], h.2⟩

theorem Catches.lt (hc : Canonical m e) {u : ℚ} (h : Catches m e u) : u < 2 ^ 53 := by
  have hlt : m + 1 ≤ 2 ^ 53 := hc.lt
  have hlt' : (m : ℚ) + 1 ≤ 2 ^ 53 := by exact_mod_cast hlt
  linarith [h.nearest.bounds.2]

theorem Catches.pos (hc : Canonical m e) {u : ℚ} (h : Catches m e u) : 1 / 2 ≤ u := by
  have hpos : (1 : ℚ) ≤ m := by exact_mod_cast hc.pos
  linarith [h.nearest.bounds.1]

/-- Just below a power of two a number is caught from closer by. -/
theorem Catches.of_lt (hc : Canonical m e) {u : ℚ} (h : Catches m e u) (hu : u < 2 ^ 52)
    (he : e ≠ -1074) : m = 2 ^ 52 ∧ 2 ^ 52 - 1 / 4 ≤ u := by
  have hnormal : 2 ^ 52 ≤ m := hc.normal.resolve_right he
  have hlt : -1074 < e := lt_of_le_of_ne hc.exponent (Ne.symm he)
  have hm : m = 2 ^ 52 := by
    have hle : (m : ℚ) < 2 ^ 52 + 1 := by linarith [h.nearest.bounds.1]
    have hle' : m < 2 ^ 52 + 1 := by exact_mod_cast hle
    omega
  have heven : m % 2 = 0 := by omega
  rw [Catches, if_pos heven, if_pos ⟨hm, hlt⟩] at h
  refine ⟨hm, ?_⟩
  rw [hm] at h
  exact_mod_cast h.1

/-- A number that is rounded to `m * 2 ^ e` comes out as that, however its mantissa was cut off. -/
theorem roundWithAccuracy_eq (hx : Locates (.ofMantissaAndAccuracy M a) x) (hc : Canonical m e)
    {u : ℚ} (hu : x * 2 ^ t = u * 2 ^ e) (hcatch : Catches m e u) (hte : t ≤ e)
    (hbinade : u < 2 ^ 52 → e ≠ -1074 → t < e) (s : Sign) :
    roundWithAccuracy Format.binary64 s M t a = .finite s m e hc.pos := by
  by_cases hlow : 2 ^ 52 ≤ u ∨ e = -1074
  · obtain ⟨em, hshift, hem⟩ :=
      shiftToTargetExponent_eq hx hte hc.exponent hu hlow (hcatch.lt hc)
    have hround : em.roundedMantissa = m := hem.roundedMantissa hcatch.nearest
    have hsame : shiftToTargetExponent Format.binary64 m e .exact = (⟨m, false, false⟩, e) := by
      rw [shiftToTargetExponent, hc.target, shiftToExponent, Int.sub_self]
      exact Prod.ext rfl (Int.add_zero e)
    simp only [roundWithAccuracy, hshift, hround, hsame, dif_neg (Nat.ne_of_gt hc.pos)]
  · -- the number is rounded up to a power of two, which takes one bit more
    obtain ⟨hsmall, he⟩ := not_or.mp hlow
    rw [not_le] at hsmall
    obtain ⟨rfl, hclose⟩ := hcatch.of_lt hc hsmall he
    have hexponent := hc.exponent
    have htwo : (2 : ℚ) ≠ 0 := by norm_num
    have hu' : x * 2 ^ t = 2 * u * 2 ^ (e - 1) := by
      rw [hu, zpow_sub_one₀ htwo]
      ring
    obtain ⟨em, hshift, hem⟩ := shiftToTargetExponent_eq (e := e - 1) hx
      (Int.le_sub_one_of_lt (hbinade hsmall he)) (by omega) hu' (.inl (by linarith)) (by linarith)
    have hnear : Nearest (2 ^ 53) (2 * u) := by
      rw [Nearest, if_pos (by norm_num)]
      constructor <;> push_cast <;> linarith
    have hround : em.roundedMantissa = 2 ^ 53 := hem.roundedMantissa hnear
    have hcarry : shiftToTargetExponent Format.binary64 (2 ^ 53) (e - 1) .exact =
        (⟨2 ^ 52, false, false⟩, e) := by
      have htarget : Format.binary64.targetExponent (totalExponent (2 ^ 53) (e - 1)) = e := by
        rw [targetExponent_eq, totalExponent, Nat.log2_two_pow]
        omega
      rw [shiftToTargetExponent, htarget, shiftToExponent, show (e - (e - 1)).toNat = 1 by omega]
      exact Prod.ext rfl (by simp)
    simp only [roundWithAccuracy, hshift, hround, hcarry]
    rfl

end

end PeakUsage.Number
