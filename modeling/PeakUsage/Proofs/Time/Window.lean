import PeakUsage.Time.Timestamp

/-! Going back in time: exact as far as there are times, and no further than to the first of
them. -/
namespace PeakUsage.Timestamp

/-- In the order of time. Leap seconds come between the second that they belong to and the next. -/
instance : LE Timestamp where
  le t u := t.second < u.second ∨ t.second = u.second ∧ t.nano ≤ u.nano

/-- The times that there are. -/
structure InRange (t : Timestamp) : Prop where
  first : earliest.second ≤ t.second
  last : t.second ≤ latest.second
  nano_lt : t.nano < 2 * Nanos.second

theorem earliest_second : earliest.second = -8334601228800 := by decide

theorem latest_second : latest.second = 8210266876799 := by decide

variable {t u : Timestamp}

theorem le_def : t ≤ u ↔ t.second < u.second ∨ t.second = u.second ∧ t.nano ≤ u.nano := Iff.rfl

theorem le_trans {v : Timestamp} (htu : t ≤ u) (huv : u ≤ v) : t ≤ v := by
  rw [le_def] at htu huv ⊢
  omega

theorem earliest_le (ht : t.InRange) : earliest ≤ t := by
  rcases Int.lt_or_eq_of_le ht.first with hlt | heq
  · exact .inl hlt
  · exact .inr ⟨heq, Nat.zero_le _⟩

/-! ### Times outside leap seconds -/

section
variable (ht : ¬ t.IsLeap)
include ht

theorem ofNanos_nanos : ofNanos t.nanos = t := by
  obtain ⟨second, nano⟩ := t
  have hnano : nano < 1000000000 := Nat.not_le.mp ht
  simp only [ofNanos, nanos, Nanos.second_eq, Timestamp.mk.injEq]
  constructor <;> omega

theorem le_iff_nanos_le (hu : ¬ u.IsLeap) : t ≤ u ↔ t.nanos ≤ u.nanos := by
  have hnano : t.nano < 1000000000 := Nat.not_le.mp ht
  have hnano' : u.nano < 1000000000 := Nat.not_le.mp hu
  rw [le_def, nanos, nanos, Nanos.second_eq]
  omega

end

theorem not_isLeap_ofNanos (n : Int) : ¬ (ofNanos n).IsLeap := by
  rw [IsLeap, ofNanos, Nanos.second_eq]
  dsimp only
  omega

theorem not_isLeap_earliest : ¬ earliest.IsLeap := by decide

theorem nanos_earliest : earliest.nanos = -8334601228800000000000 := by decide

theorem inRange_earliest : earliest.InRange := by
  constructor <;> decide

/-- What lies between the first time and one that there is, is a time that there is. -/
theorem inRange_ofNanos {n : Int} (ht : t.InRange) (hfirst : earliest.nanos ≤ n)
    (hle : n ≤ t.nanos) (hleap : ¬ t.IsLeap) : (ofNanos n).InRange := by
  have hnano : t.nano < 1000000000 := Nat.not_le.mp hleap
  have hlast := ht.last
  rw [nanos_earliest] at hfirst
  rw [nanos, Nanos.second_eq] at hle
  refine ⟨?_, ?_, Nat.lt_trans (Nat.not_le.mp (not_isLeap_ofNanos n)) (by decide)⟩
  · rw [earliest_second, ofNanos, Nanos.second_eq]
    dsimp only
    omega
  · rw [ofNanos, Nanos.second_eq]
    dsimp only
    omega

/-! ### Ways back -/

/-- A way back in time that is exact as long as it does not lead before the first time there is, and
ends there otherwise. It leads to a time there is, and not ahead; a longer one does not end later,
and one from a later time does not end earlier. -/
structure Saturates (back : Timestamp → Nat → Timestamp) : Prop where
  eq : ∀ t : Timestamp, t.InRange → ¬ t.IsLeap → ∀ d : Nat,
    back t d = if earliest.nanos ≤ t.nanos - d then ofNanos (t.nanos - d) else earliest
  inRange : ∀ t : Timestamp, t.InRange → ¬ t.IsLeap → ∀ d : Nat,
    (back t d).InRange ∧ ¬ (back t d).IsLeap
  le : ∀ t : Timestamp, t.InRange → ¬ t.IsLeap → ∀ d : Nat, back t d ≤ t
  anti : ∀ t : Timestamp, t.InRange → ¬ t.IsLeap → ∀ d e : Nat, d ≤ e → back t e ≤ back t d
  mono : ∀ t u : Timestamp, t.InRange → ¬ t.IsLeap → u.InRange → ¬ u.IsLeap → t ≤ u →
    ∀ d : Nat, back t d ≤ back u d

/-! ### Exact arithmetic -/

namespace Arithmetic
variable {Span : Type}

/-- Spans have the lengths they are made of, and times are as far apart as the span between them.
There is no span only for lengths beyond the longest, and no time only where there is none. -/
structure Exact (a : Arithmetic Span) (length : Span → Nat) : Prop where
  length_eq : ∀ d s, a.span? d = some s → length s = d
  longest_lt : ∀ d, a.span? d = none → longestSpan < d
  sub_eq : ∀ (t : Timestamp) s u, t.InRange → ¬ t.IsLeap → a.sub? t s = some u →
    u.InRange ∧ ¬ u.IsLeap ∧ u.nanos = t.nanos - length s
  nanos_ne : ∀ (t : Timestamp) s, t.InRange → ¬ t.IsLeap → a.sub? t s = none →
    ∀ u : Timestamp, u.InRange → ¬ u.IsLeap → u.nanos ≠ t.nanos - length s

/-- From no time there is does the longest span lead to another. -/
theorem lt_earliest_of_longest_lt {d : Nat} (ht : t.InRange) (hleap : ¬ t.IsLeap)
    (hd : longestSpan < d) : t.nanos - d < earliest.nanos := by
  have hnano : t.nano < 1000000000 := Nat.not_le.mp hleap
  have hlast := ht.last
  have hlongest : longestSpan = 9223372036854775807000000 := by decide
  rw [latest_second] at hlast
  rw [nanos_earliest, nanos, Nanos.second_eq]
  omega

variable {a : Arithmetic Span} {length : Span → Nat} (ha : a.Exact length) {d e : Nat}
include ha

/-- So the two ranges end alike: a length without a span is as good as one that leads too far. -/
theorem Exact.back_eq (ht : t.InRange) (hleap : ¬ t.IsLeap) (d : Nat) :
    a.back t d = if earliest.nanos ≤ t.nanos - d then ofNanos (t.nanos - d) else earliest := by
  cases hspan : a.span? d with
  | none =>
    have hlt := lt_earliest_of_longest_lt ht hleap (ha.longest_lt d hspan)
    rw [if_neg (Int.not_le.mpr hlt), back, hspan]
    rfl
  | some s =>
    obtain rfl := ha.length_eq d s hspan
    cases hsub : a.sub? t s with
    | none =>
      have hback : a.back t (length s) = earliest := by
        rw [back, hspan, Option.bind_some, hsub]
        rfl
      -- Were the difference a time, the arithmetic would have given it.
      rw [hback, if_neg]
      intro hfirst
      have hle : t.nanos - length s ≤ t.nanos := Int.sub_le_self _ (Int.natCast_nonneg _)
      exact ha.nanos_ne t s ht hleap hsub _ (inRange_ofNanos ht hfirst hle hleap)
        (not_isLeap_ofNanos _) (nanos_ofNanos _)
    | some u =>
      have hback : a.back t (length s) = u := by
        rw [back, hspan, Option.bind_some, hsub]
        rfl
      obtain ⟨hu, huleap, hnanos⟩ := ha.sub_eq t s u ht hleap hsub
      have hfirst : earliest.nanos ≤ u.nanos :=
        (le_iff_nanos_le not_isLeap_earliest huleap).mp (earliest_le hu)
      rw [hback, ← hnanos, if_pos hfirst, ofNanos_nanos huleap]

theorem Exact.inRange_back (ht : t.InRange) (hleap : ¬ t.IsLeap) (d : Nat) :
    (a.back t d).InRange ∧ ¬ (a.back t d).IsLeap := by
  rw [ha.back_eq ht hleap d]
  split
  · next hfirst =>
    have hle : t.nanos - d ≤ t.nanos := Int.sub_le_self _ (Int.natCast_nonneg _)
    exact ⟨inRange_ofNanos ht hfirst hle hleap, not_isLeap_ofNanos _⟩
  · exact ⟨inRange_earliest, not_isLeap_earliest⟩

theorem Exact.nanos_back (ht : t.InRange) (hleap : ¬ t.IsLeap) (d : Nat) :
    (a.back t d).nanos = max earliest.nanos (t.nanos - d) := by
  rw [ha.back_eq ht hleap d]
  split
  · next hfirst => rw [nanos_ofNanos, Int.max_eq_right hfirst]
  · next hfirst => rw [Int.max_eq_left (Int.le_of_lt (Int.not_le.mp hfirst))]

theorem Exact.back_le (ht : t.InRange) (hleap : ¬ t.IsLeap) (d : Nat) : a.back t d ≤ t := by
  have hfirst : earliest.nanos ≤ t.nanos :=
    (le_iff_nanos_le not_isLeap_earliest hleap).mp (earliest_le ht)
  rw [le_iff_nanos_le (ha.inRange_back ht hleap d).2 hleap, ha.nanos_back ht hleap]
  exact Int.max_le.mpr ⟨hfirst, Int.sub_le_self _ (Int.natCast_nonneg d)⟩

/-- A longer way back does not end later. -/
theorem Exact.back_anti (ht : t.InRange) (hleap : ¬ t.IsLeap) (h : d ≤ e) :
    a.back t e ≤ a.back t d := by
  rw [le_iff_nanos_le (ha.inRange_back ht hleap e).2 (ha.inRange_back ht hleap d).2,
    ha.nanos_back ht hleap, ha.nanos_back ht hleap]
  have hsub : t.nanos - e ≤ t.nanos - d := Int.sub_le_sub_left (Int.ofNat_le.mpr h) _
  omega

/-- The way back from a later time does not end earlier. -/
theorem Exact.back_mono (ht : t.InRange) (hleap : ¬ t.IsLeap) (hu : u.InRange)
    (huleap : ¬ u.IsLeap) (h : t ≤ u) (d : Nat) : a.back t d ≤ a.back u d := by
  rw [le_iff_nanos_le (ha.inRange_back ht hleap d).2 (ha.inRange_back hu huleap d).2,
    ha.nanos_back ht hleap, ha.nanos_back hu huleap]
  have hsub : t.nanos - d ≤ u.nanos - d :=
    Int.sub_le_sub_right ((le_iff_nanos_le hleap huleap).mp h) _
  omega

theorem Exact.saturates : Saturates a.back where
  eq _ ht hleap := ha.back_eq ht hleap
  inRange _ ht hleap := ha.inRange_back ht hleap
  le _ ht hleap := ha.back_le ht hleap
  anti _ ht hleap _ _ := ha.back_anti ht hleap
  mono _ _ ht hleap hu huleap := ha.back_mono ht hleap hu huleap

end Arithmetic

/-! ### The calendar -/

theorem sub_eq_ofNanos (hleap : ¬ t.IsLeap) (d : Nat) : t.sub d = ofNanos (t.nanos - d) :=
  if_neg fun h => hleap h.1

/-- Also from inside a leap second the way leads back. -/
theorem sub_le (ht : t.nano < 2 * Nanos.second) (d : Nat) : t.sub d ≤ t := by
  rw [le_def, sub]
  split
  · exact .inr ⟨rfl, Nat.sub_le _ _⟩
  · next hstay =>
    rw [IsLeap, Nanos.second_eq] at hstay
    rw [Nanos.second_eq] at ht
    simp only [ofNanos, nanos, Nanos.second_eq]
    omega

theorem calendar_exact : calendar.Exact id where
  length_eq d s h := by
    simp only [calendar, Option.ite_none_right_eq_some, Option.some.injEq] at h
    exact h.2.symm
  longest_lt d h := by
    simp only [calendar, ite_eq_right_iff, reduceCtorEq, imp_false] at h
    exact Nat.not_le.mp h
  sub_eq t s u _ hleap h := by
    simp only [calendar, Option.ite_none_right_eq_some, Option.some.injEq] at h
    obtain ⟨hrange, rfl⟩ := h
    rw [sub_eq_ofNanos hleap] at hrange ⊢
    have hnano := Nat.not_le.mp (not_isLeap_ofNanos (t.nanos - s))
    exact ⟨⟨hrange.1, hrange.2, Nat.lt_trans hnano (by decide)⟩, not_isLeap_ofNanos _,
      nanos_ofNanos _⟩
  nanos_ne t s _ hleap h u hu huleap hnanos := by
    simp only [calendar, ite_eq_right_iff, reduceCtorEq, imp_false] at h
    have hsub : t.sub s = u := by
      rw [sub_eq_ofNanos hleap, ← ofNanos_nanos huleap, hnanos]
      rfl
    rw [hsub] at h
    exact h ⟨hu.first, hu.last⟩

theorem saturates_back : Saturates back := calendar_exact.saturates

/-- The way back from inside a leap second, too, does not lead ahead. -/
theorem back_le (ht : t.InRange) (d : Nat) : t.back d ≤ t := by
  rw [back, Arithmetic.back]
  cases hspan : calendar.span? d with
  | none => exact earliest_le ht
  | some s =>
    rw [Option.bind_some]
    cases hsub : calendar.sub? t s with
    | none => exact earliest_le ht
    | some u =>
      simp only [calendar, Option.ite_none_right_eq_some, Option.some.injEq] at hsub
      obtain ⟨-, rfl⟩ := hsub
      exact sub_le ht.nano_lt s

end PeakUsage.Timestamp
