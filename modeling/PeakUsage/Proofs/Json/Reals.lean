import PeakUsage.Proofs.Json.Numerals

/-! Floats read back as they were written. -/
namespace PeakUsage.Number
open Float.Model Float.Model.UnpackedFloat Json Text

/-! ### Decimals with a point -/

/-- The digits behind the point, with the point unless there are none. -/
def pointed : List Char → List Char
  | [] => []
  | d :: ds => '.' :: d :: ds

theorem pointed_of_ne_nil {ds : List Char} (h : ds ≠ []) : pointed ds = '.' :: ds := by
  cases ds with
  | nil => exact absurd rfl h
  | cons d ds => rfl

/-- The digits of a decimal: `c * 10 ^ k` is the number of all of them, less the places behind the
point. -/
structure Decimal (c : Nat) (k : Int) (ws fs : List Char) : Prop where
  whole : Whole ws
  fraction : Digits fs
  value : (ofDigits (ws ++ fs) : ℚ) = c * 10 ^ k * 10 ^ fs.length

section
variable {c : Nat} {k : Int}

theorem ten_zpow_mul_cancel {k : Int} (hk : k ≤ 0) :
    (10 : ℚ) ^ k * 10 ^ (-k).toNat = 1 := by
  rw [← zpow_natCast, Int.toNat_of_nonneg (by omega), ← zpow_add₀ (by norm_num), add_neg_cancel,
    zpow_zero]

/-- A natural number: zeros stand behind the digits. -/
theorem Decimal.trailing (hc : 0 < c) (hk : 0 ≤ k) :
    Decimal c k (Nat.toDigits 10 c ++ List.replicate k.toNat '0') [] where
  whole := whole_append hc (digits_replicate _)
  fraction := nofun
  value := by
    have hten : (10 : ℚ) ^ k.toNat = 10 ^ k := by rw [← zpow_natCast, Int.toNat_of_nonneg hk]
    rw [List.append_nil, ofDigits_append, ofDigits_replicate, ofDigits_toDigits,
      List.length_replicate, Nat.add_zero, Nat.cast_mul, Nat.cast_pow, List.length_nil]
    push_cast
    rw [hten]
    ring

/-- The point stands among the digits. -/
theorem Decimal.among {places : Nat} (hc : 0 < c) (hk : (10 : ℚ) ^ k * 10 ^ places = 1)
    (hshort : places < (Nat.toDigits 10 c).length) :
    Decimal c k ((Nat.toDigits 10 c).take ((Nat.toDigits 10 c).length - places))
      ((Nat.toDigits 10 c).drop ((Nat.toDigits 10 c).length - places)) where
  whole := whole_take hc (Nat.sub_pos_of_lt hshort)
  fraction := fun d hd => digits_toDigits c d (List.mem_of_mem_drop hd)
  value := by
    rw [List.take_append_drop, ofDigits_toDigits, List.length_drop, Nat.sub_sub_self hshort.le,
      mul_assoc, hk, mul_one]

/-- A number below one: zeros stand before the digits. -/
theorem Decimal.leading {places : Nat} (hk : (10 : ℚ) ^ k * 10 ^ places = 1)
    (hlong : (Nat.toDigits 10 c).length ≤ places) :
    Decimal c k ['0']
      (List.replicate (places - (Nat.toDigits 10 c).length) '0' ++ Nat.toDigits 10 c) where
  whole := whole_zero
  fraction := (digits_replicate _).append (digits_toDigits c)
  value := by
    have hzero : ofDigits ['0'] = 0 := rfl
    rw [ofDigits_append, ofDigits_append, ofDigits_replicate, hzero, ofDigits_toDigits,
      List.length_append, List.length_replicate, Nat.sub_add_cancel hlong, mul_assoc, hk]
    push_cast
    ring

theorem exists_positional (hc : 0 < c) (k : Int) :
    ∃ ws fs, Decimal c k ws fs ∧ (positional c k).toList = ws ++ pointed fs := by
  unfold positional
  by_cases hk : 0 ≤ k
  · refine ⟨_, [], .trailing hc hk, ?_⟩
    rw [if_pos hk, String.toList_ofList]
    exact (List.append_nil _).symm
  · have hcancel := ten_zpow_mul_cancel (k := k) (by omega)
    have hplaces : 0 < (-k).toNat := by omega
    simp only [if_neg hk]
    by_cases hshort : (-k).toNat < (Nat.toDigits 10 c).length
    · refine ⟨_, _, .among hc hcancel hshort, ?_⟩
      rw [if_pos hshort, String.toList_ofList, pointed_of_ne_nil]
      intro hnil
      rw [List.drop_eq_nil_iff] at hnil
      omega
    · refine ⟨_, _, .leading hcancel (Nat.le_of_not_lt hshort), ?_⟩
      rw [if_neg hshort, String.toList_ofList, pointed_of_ne_nil]
      · rfl
      · exact List.append_ne_nil_of_right_ne_nil _ Nat.toDigits_ne_nil

end

/-! ### Signs -/

section
variable {x : Float}

theorem magnitude_lt_of_isFinite (h : isFinite x = true) : magnitude x < infiniteMagnitude :=
  of_decide_eq_true h

/-- The parts of a finite number other than zero. -/
theorem parts_of_isFinite (hfinite : isFinite x = true) (hne : magnitude x ≠ 0) :
    let s := Scaled.ofMagnitude (magnitude x)
    ∃ hc : Canonical s.mantissa s.exponent, s.WellFormed ∧ s.exponent ≤ 971 ∧
      magnitudeOf s.mantissa s.exponent = magnitude x ∧
      x.toModel.unpack = .finite (signOf x) s.mantissa s.exponent hc.pos := by
  obtain ⟨hc, he, hmagnitude, hbelow⟩ :=
    canonical_ofMagnitude hne (magnitude_lt_of_isFinite hfinite)
  obtain ⟨_, hunpack⟩ := unpack_of_finite hfinite hne
  exact ⟨hc, hbelow, he, hmagnitude, hunpack⟩

/-- Negation turns the sign around and keeps the magnitude. -/
theorem neg_parts (hfinite : isFinite x = true) :
    signOf (-x) = -signOf x ∧ magnitude (-x) = magnitude x := by
  have hneg : -x = packed x.toModel.unpack.neg := rfl
  by_cases hzero : magnitude x = 0
  · rw [hneg, unpack_of_zero hzero, hzero]
    exact packed_zero (-signOf x)
  · obtain ⟨hc, -, he, hmagnitude, hunpack⟩ := parts_of_isFinite hfinite hzero
    rw [hneg, hunpack]
    obtain ⟨hsign, hsame⟩ := packed_canonical hc he (-signOf x)
    exact ⟨hsign, hsame.trans hmagnitude⟩

end

/-! ### The text of a number -/

theorem Decimal.zero : Decimal 0 0 ['0'] [] where
  whole := whole_zero
  fraction := nofun
  value := by
    have hzero : ofDigits ['0'] = 0 := rfl
    rw [List.append_nil, hzero, Nat.cast_zero, zero_mul, zero_mul]

theorem Decimal.append_zero {c : Nat} {k : Int} {ws : List Char} (h : Decimal c k ws []) :
    Decimal c k ws ['0'] where
  whole := h.whole
  fraction := digits_replicate 1
  value := by
    have hzero : ofDigits ['0'] = 0 := rfl
    have hvalue := h.value
    rw [List.append_nil, List.length_nil, pow_zero, mul_one] at hvalue
    rw [ofDigits_append, hzero, List.length_singleton, Nat.add_zero, Nat.cast_mul, hvalue]
    push_cast
    ring

/-- The sign in front of a number. -/
def signText (x : Float) : List Char := if isNegative x then ['-'] else []

/-- Whether a numeral is read as the magnitude of a number. -/
def ReadBack (x : Float) (mantissa places : Nat) : Prop :=
  signOf (nearestReal mantissa (-places)) = .positive ∧
    magnitude (nearestReal mantissa (-places)) = magnitude x

section
variable {x : Float}

theorem readBack_zero (hzero : magnitude x = 0) (places : Nat) : ReadBack x 0 places := by
  have hread : nearestReal 0 (-places) = 0.0 := by
    rw [nearestReal, if_pos (Or.inl rfl)]
  have hpositive : isNegative 0.0 = false := by decide
  have hmagnitude : magnitude 0.0 = 0 := by decide
  rw [ReadBack, hread, hzero, signOf, hpositive]
  exact ⟨rfl, hmagnitude⟩

/-- The shortest decimal of a number is positive and is read as the number. -/
theorem readBack_shortest (hfinite : isFinite x = true) (hne : magnitude x ≠ 0) :
    let d := (Scaled.ofMagnitude (magnitude x)).shortest
    0 < d.1 ∧ ∀ {mantissa places : Nat}, 0 < places →
      (mantissa : ℚ) = d.1 * 10 ^ d.2 * 10 ^ places → ReadBack x mantissa places := by
  obtain ⟨hc, hs, he, hmagnitude, -⟩ := parts_of_isFinite hfinite hne
  have hcovers := Scaled.covers_shortest hs hc he
  generalize Scaled.ofMagnitude (magnitude x) = s at *
  have hu : (s.shortest.1 : ℚ) * 10 ^ s.shortest.2 =
      s.shortest.1 * 10 ^ s.shortest.2 / 2 ^ s.exponent * 2 ^ s.exponent :=
    (div_mul_cancel₀ _ (zpow_ne_zero _ two_ne_zero)).symm
  have hcatch := (Scaled.covers_iff hs hc.pos hu).mp hcovers
  refine ⟨?_, ?_⟩
  · have hpos := hcatch.pos hc
    refine Nat.pos_of_ne_zero fun hzero => ?_
    rw [hzero, Nat.cast_zero, zero_mul, zero_div] at hpos
    norm_num at hpos
  · intro mantissa places hplaces hvalue
    rw [ReadBack, nearestReal_eq hc he hcatch hplaces (by rw [IsDecimal, hvalue, ← hu])]
    obtain ⟨hsign, hsame⟩ := packed_canonical hc he .positive
    exact ⟨hsign, hsame.trans hmagnitude⟩

/-- A finite number is written as a decimal that is read as its magnitude, however many zeros are
put behind it. -/
theorem exists_decimal (hfinite : isFinite x = true) :
    ∃ c k ws fs, Decimal c k ws fs ∧ (text x).toList = signText x ++ (ws ++ pointed fs) ∧
      ∀ {mantissa places : Nat}, 0 < places → (mantissa : ℚ) = c * 10 ^ k * 10 ^ places →
        ReadBack x mantissa places := by
  have hlt := magnitude_lt_of_isFinite hfinite
  have hnan : isNaN x = false := decide_eq_false (Nat.lt_asymm hlt)
  have hsign : (if isNegative x then "-" else "").toList = signText x := by
    rw [signText]
    split <;> rfl
  rw [text, hnan]
  simp only [Bool.false_eq_true, if_false, if_neg (Nat.ne_of_lt hlt)]
  by_cases hzero : magnitude x = 0
  · refine ⟨0, 0, ['0'], [], .zero, ?_, ?_⟩
    · rw [if_pos hzero, String.toList_append, hsign]
      rfl
    · intro mantissa places _ hvalue
      obtain rfl : mantissa = 0 := by
        rw [Nat.cast_zero, zero_mul, zero_mul] at hvalue
        exact_mod_cast hvalue
      exact readBack_zero hzero places
  · obtain ⟨hpos, hread⟩ := readBack_shortest hfinite hzero
    obtain ⟨ws, fs, hdecimal, htext⟩ := exists_positional hpos _
    refine ⟨_, _, ws, fs, hdecimal, ?_, hread⟩
    rw [if_neg hzero, String.toList_append, hsign, htext]

end

end PeakUsage.Number

namespace PeakUsage.Json
open Number Text

section
variable {x : Float} {ws fs rest : List Char}

theorem contains_point (hws : Digits ws) :
    (signText x ++ (ws ++ pointed fs)).contains '.' = !fs.isEmpty := by
  have hsign : '.' ∉ signText x := by
    rw [signText]
    split <;> decide
  have hwhole : '.' ∉ ws := fun h => absurd (hws _ h) (by decide)
  rw [Bool.eq_iff_iff, List.contains_iff_mem]
  cases fs with
  | nil => simp [pointed, hsign, hwhole]
  | cons f fs => simp [pointed]

/-- The text of a finite number: a sign, and a decimal with a point. -/
theorem exists_realText (hfinite : isFinite x = true) :
    ∃ ws fs, Whole ws ∧ Digits fs ∧ fs ≠ [] ∧
      (realText x).toList = signText x ++ (ws ++ '.' :: fs) ∧
      ReadBack x (ofDigits (ws ++ fs)) fs.length := by
  obtain ⟨c, k, ws, fs, h, htext, hread⟩ := exists_decimal hfinite
  rw [realText, if_pos hfinite]
  simp only [htext, contains_point h.whole.digits]
  cases fs with
  | nil =>
    refine ⟨ws, ['0'], h.whole, digits_replicate 1, nofun, ?_, hread Nat.one_pos h.append_zero.value⟩
    simp only [List.isEmpty_nil, Bool.not_true, Bool.false_eq_true, if_false, String.toList_append,
      htext, pointed, List.append_nil, List.append_assoc]
    rfl
  | cons f fs =>
    refine ⟨ws, f :: fs, h.whole, h.fraction, nofun, ?_, hread (Nat.succ_pos _) h.value⟩
    simp only [List.isEmpty_cons, Bool.not_false, if_true, htext, pointed]

theorem value_of_pointed (b : Bool) (mantissa : Nat) (exponent : Int) :
    (⟨b, mantissa, exponent, false⟩ : Numeral).value =
      .real (if b then -nearestReal mantissa exponent else nearestReal mantissa exponent) := by
  simp [Numeral.value]

/-- A finite number is read back from its text. -/
theorem numeral?_real (hfinite : isFinite x = true) (hrest : Ends rest) :
    numeral? ((realText x).toList ++ rest) = some (.real x, rest) := by
  obtain ⟨ws, fs, hws, hfs, hne, htext, hsign, hmagnitude⟩ := exists_realText hfinite
  rw [htext, signText]
  cases hnegative : isNegative x with
  | false =>
    rw [if_neg Bool.false_ne_true, List.nil_append]
    have hx : signOf x = .positive := by rw [signOf, hnegative]; rfl
    have hassoc : ws ++ '.' :: fs ++ rest = ws ++ ('.' :: fs ++ rest) := List.append_assoc ..
    rw [hassoc, numeral?_append hws, ← hassoc, unsigned?_pointed false hws hfs hne hrest,
      value_of_pointed, if_neg Bool.false_ne_true, eq_of_parts (hsign.trans hx.symm) hmagnitude]
  | true =>
    have hx : signOf x = .negative := by rw [signOf, hnegative]; rfl
    have hread : isFinite (nearestReal (ofDigits (ws ++ fs)) (-fs.length)) = true := by
      rw [isFinite, hmagnitude]
      exact hfinite
    obtain ⟨hneg, hsame⟩ := neg_parts hread
    have hsign' : signOf (-nearestReal (ofDigits (ws ++ fs)) (-fs.length)) = signOf x := by
      rw [hneg, hsign, hx]
      rfl
    rw [if_pos rfl, List.singleton_append, List.cons_append, numeral?,
      unsigned?_pointed true hws hfs hne hrest, value_of_pointed, if_pos rfl,
      eq_of_parts hsign' (hsame.trans hmagnitude)]

end

end PeakUsage.Json
