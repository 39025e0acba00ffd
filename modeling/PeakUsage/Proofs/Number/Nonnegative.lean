import Mathlib.Order.Bounds.Basic
import Mathlib.Order.MinMax
import PeakUsage.Proofs.Number.Packing

/-! Numbers that are no NaN and at least zero: there are only such numbers among the greatest of
numbers and zero, and sums of such numbers are of their kind. -/
namespace PeakUsage.Number
open Float.Model Float.Model.UnpackedFloat

/-- Neither a NaN nor below zero; minus zero is not below it. -/
def Nonnegative (x : Float) : Prop := ∃ n, rank x = some n ∧ 0 ≤ n

theorem nonnegative_iff {x : Float} :
    Nonnegative x ↔ magnitude x ≤ infiniteMagnitude ∧ (isNegative x = true → magnitude x = 0) := by
  simp only [Nonnegative, rank, isNaN, decide_eq_true_eq]
  split
  · simp [*]
  · split
    · simp_all
    · simp_all

theorem nonnegative_zero : Nonnegative 0.0 := ⟨0, by decide, Int.le_refl 0⟩

/-! ### Sums -/

/-- A number in parts that is neither a NaN nor below zero. -/
def Upward : UnpackedFloat → Prop
  | .notANumber => False
  | .infinity s => s = .positive
  | .zero _ => True
  | .finite s _ _ _ => s = .positive

theorem Nonnegative.upward {x : Float} (h : Nonnegative x) : Upward x.toModel.unpack := by
  obtain ⟨hle, hsign⟩ := nonnegative_iff.mp h
  have hpositive : magnitude x ≠ 0 → signOf x = .positive := by
    intro hne
    rw [signOf, if_neg (mt hsign hne)]
  by_cases hzero : magnitude x = 0
  · rw [unpack_of_zero hzero]
    exact trivial
  · rcases Nat.lt_or_eq_of_le hle with hlt | heq
    · obtain ⟨hm, hunpack⟩ := unpack_of_finite (decide_eq_true hlt) hzero
      rw [hunpack]
      exact hpositive hzero
    · rw [unpack_of_infinite heq]
      exact hpositive hzero

theorem Upward.nonnegative {u : UnpackedFloat} (h : Upward u) : Nonnegative (packed u) := by
  rw [nonnegative_iff]
  cases u with
  | notANumber => exact h.elim
  | infinity s =>
    obtain rfl : s = .positive := h
    obtain ⟨hsign, hmagnitude⟩ := packed_infinity .positive
    refine ⟨Nat.le_of_eq hmagnitude, fun hneg => ?_⟩
    rw [signOf, if_pos hneg] at hsign
    cases hsign
  | zero s =>
    obtain ⟨-, hmagnitude⟩ := packed_zero s
    rw [hmagnitude]
    exact ⟨Nat.zero_le _, fun _ => rfl⟩
  | finite s m e hm =>
    obtain rfl : s = .positive := h
    obtain ⟨hsign, hmagnitude, -⟩ := packed_finite .positive m e hm
    refine ⟨hmagnitude, fun hneg => ?_⟩
    rw [signOf, if_pos hneg] at hsign
    cases hsign

theorem upward_roundWithAccuracy (m : Nat) (e : Int) (a : Accuracy) :
    Upward (roundWithAccuracy Format.binary64 .positive m e a) := by
  unfold roundWithAccuracy
  dsimp only
  split
  · exact trivial
  · rfl

theorem upward_normalize {m : Int} (hm : 0 ≤ m) (e : Int) (s : Sign) :
    Upward (UnpackedFloat.normalize Format.binary64 m e s) := by
  rw [UnpackedFloat.normalize]
  split
  · next hlt => exact absurd (Int.compare_eq_lt.mp hlt) (Int.not_lt.mpr hm)
  · exact trivial
  · exact upward_roundWithAccuracy ..

theorem Upward.add {u v : UnpackedFloat} (hu : Upward u) (hv : Upward v) :
    Upward (UnpackedFloat.add Format.binary64 u v) := by
  cases u with
  | notANumber => exact hu.elim
  | infinity s =>
    obtain rfl : s = .positive := hu
    cases v with
    | notANumber => exact hv.elim
    | infinity t =>
      obtain rfl : t = .positive := hv
      rfl
    | zero t => rfl
    | finite t n f hn => rfl
  | zero s =>
    cases v with
    | notANumber => exact hv.elim
    | infinity t => exact hv
    | zero t => cases s <;> cases t <;> exact trivial
    | finite t n f hn => exact hv
  | finite s m e hm =>
    cases v with
    | notANumber => exact hv.elim
    | infinity t => exact hv
    | zero t => exact hu
    | finite t n f hn =>
      obtain rfl : s = .positive := hu
      obtain rfl : t = .positive := hv
      exact upward_normalize (Int.add_nonneg (Int.natCast_nonneg _) (Int.natCast_nonneg _)) _ _

/-- A sum of such numbers is one. -/
theorem Nonnegative.add {x y : Float} (hx : Nonnegative x) (hy : Nonnegative y) :
    Nonnegative (x + y) :=
  (hx.upward.add hy.upward).nonnegative

/-! ### The greatest of numbers -/

/-- The places of the numbers among these. -/
def places (xs : List Float) : Set Int := {k | ∃ x ∈ xs, rank x = some k}

theorem places_mono {xs ys : List Float} (h : xs ⊆ ys) : places xs ⊆ places ys := by
  rintro k ⟨x, hx, hk⟩
  exact ⟨x, h hx, hk⟩

/-- The greatest is in the place of the greatest number of them all. -/
theorem exists_rank_greatest {start : Float} {n : Int} (hstart : rank start = some n)
    (xs : List Float) :
    ∃ m, rank (greatest start xs) = some m ∧ IsGreatest (insert n (places xs)) m := by
  induction xs generalizing start n with
  | nil =>
    refine ⟨n, hstart, Set.mem_insert .., ?_⟩
    rintro k (rfl | ⟨x, hx, -⟩)
    · exact Int.le_refl _
    · exact absurd hx List.not_mem_nil
  | cons x rest ih =>
    rw [greatest, List.foldl_cons]
    cases hx : rank x with
    | none =>
      -- a NaN changes neither the greatest so far nor the places
      rw [greater_of_isNaN hx (by rw [hstart]; nofun)]
      obtain ⟨m, hm, hgreatest⟩ := ih hstart
      refine ⟨m, hm, ?_⟩
      have hplaces : places (x :: rest) = places rest := by
        ext k
        simp [places, hx]
      rwa [hplaces]
    | some k =>
      obtain ⟨m, hm, hmem, hupper⟩ := ih (rank_greater hstart hx)
      have hplaces : places (x :: rest) = insert k (places rest) := by
        ext j
        simp [places, hx, eq_comm]
      refine ⟨m, hm, ?_⟩
      rw [hplaces]
      constructor
      · rcases hmem with rfl | hmem
        · rcases max_choice n k with h | h <;> rw [h] <;> simp
        · exact .inr (.inr hmem)
      · rintro j (rfl | rfl | hj)
        · exact (le_max_left ..).trans (hupper (.inl rfl))
        · exact (le_max_right ..).trans (hupper (.inl rfl))
        · exact hupper (.inr hj)

/-- The greatest of numbers and zero is no NaN and at least zero, whatever stands among them. -/
theorem nonnegative_greatest (xs : List Float) : Nonnegative (greatest 0.0 xs) := by
  have hzero : rank 0.0 = some 0 := by decide
  obtain ⟨m, hm, -, hupper⟩ := exists_rank_greatest hzero xs
  exact ⟨m, hm, hupper (.inl rfl)⟩

end PeakUsage.Number
