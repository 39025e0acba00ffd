import PeakUsage.Proofs.Number.Packing
import PeakUsage.Time.Timestamp

/-! The calendar: a date counted in days and the days counted as a date. -/
namespace PeakUsage.Date

/-! ### Years from March -/

/-- The date `d` days after the first of March of a year. -/
def ofMarch (year d : Int) : Date :=
  let monthFromMarch := (5 * d + 2) / 153
  let month := if monthFromMarch < 10 then monthFromMarch + 3 else monthFromMarch - 9
  ⟨if month ≤ 2 then year + 1 else year, month.toNat,
    (d - (153 * monthFromMarch + 2) / 5 + 1).toNat⟩

/-- Days from 1970-01-01 to the first of March of a year. -/
def march (year : Int) : Int := 365 * year + year / 4 - year / 100 + year / 400 - 719468

section
variable {year d : Int}

/-- A year from March ends with its leap day, if the year that begins in it has one. -/
structure InYear (year d : Int) : Prop where
  low : 0 ≤ d
  high : d ≤ 365
  leap : d = 365 → isLeapYear (year + 1) = true

theorem toDays_ofMarch (h : InYear year d) : (ofMarch year d).toDays = march year + d := by
  obtain ⟨hlow, hhigh, -⟩ := h
  by_cases hmonth : (5 * d + 2) / 153 < 10
  · have hlate : ¬ (5 * d + 2) / 153 + 3 ≤ 2 := by omega
    have hmarch : ((5 * d + 2) / 153 + 3).toNat > 2 := by omega
    simp only [ofMarch, toDays, march, if_pos hmonth, if_neg hlate, if_pos hmarch,
      if_neg (Nat.not_le.mpr hmarch)]
    omega
  · have hearly : (5 * d + 2) / 153 - 9 ≤ 2 := by omega
    have hmarch : ((5 * d + 2) / 153 - 9).toNat ≤ 2 := by omega
    simp only [ofMarch, toDays, march, if_neg hmonth, if_pos hearly, if_pos hmarch,
      if_neg (Nat.not_lt.mpr hmarch)]
    omega

theorem isValid_ofMarch (h : InYear year d) : (ofMarch year d).IsValid := by
  obtain ⟨hlow, hhigh, hleap⟩ := h
  rw [IsValid, ofMarch]
  dsimp only
  by_cases hmonth : (5 * d + 2) / 153 < 10
  · rw [if_pos hmonth, daysInMonth, if_neg (by omega : ((5 * d + 2) / 153 + 3).toNat ≠ 2)]
    refine ⟨by omega, by omega, by omega, ?_⟩
    split <;> omega
  · rw [if_neg hmonth]
    refine ⟨by omega, by omega, by omega, ?_⟩
    rw [if_pos (by omega : (5 * d + 2) / 153 - 9 ≤ 2), daysInMonth]
    by_cases hfebruary : (5 * d + 2) / 153 = 11
    · rw [if_pos (by omega)]
      split
      · omega
      · next hcommon =>
        have hne : d ≠ 365 := fun heq => hcommon (hleap heq)
        omega
    · rw [if_neg (by omega), if_neg (by omega)]
      omega

theorem year_ofMarch (h : InYear year d) :
    (ofMarch year d).year = if d < 306 then year else year + 1 := by
  obtain ⟨hlow, hhigh, -⟩ := h
  rw [ofMarch]
  dsimp only
  by_cases hmonth : (5 * d + 2) / 153 < 10
  · rw [if_pos hmonth, if_neg (by omega : ¬ (5 * d + 2) / 153 + 3 ≤ 2), if_pos (by omega)]
  · rw [if_neg hmonth, if_pos (by omega : (5 * d + 2) / 153 - 9 ≤ 2), if_neg (by omega)]

end

/-! ### Eras of 400 years -/

/-- The year of an era, of 146097 days, in which a day falls. -/
def yearOfEra (d : Int) : Int := (d - d / 1460 + d / 36524 - d / 146096) / 365

section
variable {d : Int}

theorem yearOfEra_bounds (hlow : 0 ≤ d) (hhigh : d ≤ 146096) :
    0 ≤ yearOfEra d ∧ yearOfEra d ≤ 399 := by
  rw [yearOfEra]
  omega

/-- The last century of an era is one day longer than the others. -/
theorem yearOfEra_div (hlow : 0 ≤ d) (hhigh : d ≤ 146096) :
    yearOfEra d / 100 = d / 36524 - d / 146096 := by
  rw [yearOfEra]
  obtain h | h | h | h | h : d / 36524 = 0 ∨ d / 36524 = 1 ∨ d / 36524 = 2 ∨ d / 36524 = 3 ∨
    d / 36524 = 4 := by omega
  all_goals omega

theorem dayOfYear_bounds (hlow : 0 ≤ d) (hhigh : d ≤ 146096) :
    0 ≤ d - (365 * yearOfEra d + yearOfEra d / 4 - yearOfEra d / 100) ∧
      d - (365 * yearOfEra d + yearOfEra d / 4 - yearOfEra d / 100) ≤ 365 := by
  have hcentury := yearOfEra_div hlow hhigh
  generalize hy : yearOfEra d = y at *
  rw [yearOfEra] at hy
  omega

/-- Only a year before a leap year has 366 days from March. -/
theorem isLeapYear_of_dayOfYear (hlow : 0 ≤ d) (hhigh : d ≤ 146096)
    (hday : d - (365 * yearOfEra d + yearOfEra d / 4 - yearOfEra d / 100) = 365) (era : Int) :
    isLeapYear (yearOfEra d + era * 400 + 1) = true := by
  have hcentury := yearOfEra_div hlow hhigh
  generalize hy : yearOfEra d = y at *
  rw [yearOfEra] at hy
  have hfour : y / 4 + 1 ≤ d / 1460 := by omega
  have hrest : y % 4 = 3 := by omega
  have hcommon : (y + 1) % 100 = 0 → y = 399 := by
    intro hzero
    have hlast : y = 100 * (y / 100) + 99 := by omega
    have hday : d = 36524 * (y / 100 + 1) := by omega
    omega
  have hdiv : (y + era * 400 + 1) % 4 = 0 := by omega
  have hdiv' : (y + era * 400 + 1) % 100 ≠ 0 ∨ (y + era * 400 + 1) % 400 = 0 := by omega
  simp only [isLeapYear, hdiv, decide_true, Bool.true_and, Bool.or_eq_true, decide_eq_true_eq]
  exact hdiv'

end

/-! ### Days -/

theorem march_add_era {y : Int} (hfirst : 0 ≤ y) (hlast : y ≤ 399) (era : Int) :
    march (y + era * 400) = 146097 * era + 365 * y + y / 4 - y / 100 - 719468 := by
  have hfour : (y + era * 400) / 4 = y / 4 + era * 100 := by omega
  have hcentury : (y + era * 400) / 100 = y / 100 + era * 4 := by omega
  have hera : (y + era * 400) / 400 = era := by omega
  rw [march, hfour, hcentury, hera]
  ring

theorem march_add_le {x y : Int} (h : x < y) : march x + 365 ≤ march y := by
  rw [march, march]
  omega

/-- Each day falls into a year from March. -/
theorem exists_ofMarch (n : Int) :
    ∃ year d, InYear year d ∧ ofDays n = ofMarch year d ∧ n = march year + d := by
  let e := n + 719468 - (n + 719468) / 146097 * 146097
  have hlow : 0 ≤ e := by
    simp only [e]
    omega
  have hhigh : e ≤ 146096 := by
    simp only [e]
    omega
  obtain ⟨hfirst, hlast⟩ := yearOfEra_bounds hlow hhigh
  obtain ⟨hday, hday'⟩ := dayOfYear_bounds hlow hhigh
  refine ⟨yearOfEra e + (n + 719468) / 146097 * 400,
    e - (365 * yearOfEra e + yearOfEra e / 4 - yearOfEra e / 100),
    ⟨hday, hday', fun heq => isLeapYear_of_dayOfYear hlow hhigh heq _⟩, rfl, ?_⟩
  have he : e = n + 719468 - (n + 719468) / 146097 * 146097 := rfl
  rw [march_add_era hfirst hlast]
  omega

/-- The days of a date count to the date. -/
theorem toDays_ofDays (n : Int) : (ofDays n).toDays = n := by
  obtain ⟨year, d, h, hdate, hn⟩ := exists_ofMarch n
  rw [hdate, toDays_ofMarch h, ← hn]

theorem daysInMonth_le (y : Int) (m : Nat) : daysInMonth y m ≤ 31 := by
  rw [daysInMonth]
  split
  · split <;> decide
  · split <;> decide

theorem isValid_ofDays (n : Int) : (ofDays n).IsValid := by
  obtain ⟨year, d, h, hdate, -⟩ := exists_ofMarch n
  rw [hdate]
  exact isValid_ofMarch h

/-- A day between the first and the last one there is falls into a year between theirs. -/
theorem year_ofDays_bounds {n : Int} (hlow : toDays ⟨-262143, 1, 1⟩ ≤ n)
    (hhigh : n ≤ toDays ⟨262142, 12, 31⟩) :
    -262143 ≤ (ofDays n).year ∧ (ofDays n).year ≤ 262142 := by
  have hfirst : toDays ⟨-262143, 1, 1⟩ = march (-262144) + 306 := by decide
  have hlast : toDays ⟨262142, 12, 31⟩ = march 262142 + 305 := by decide
  obtain ⟨year, d, h, hdate, hn⟩ := exists_ofMarch n
  rw [hfirst, hn] at hlow
  rw [hlast, hn] at hhigh
  rw [hdate, year_ofMarch h]
  have hearly : year < -262144 → march year + 365 ≤ march (-262144) := march_add_le
  have hlate : 262142 < year → march 262142 + 365 ≤ march year := march_add_le
  have hsame : year = -262144 → march year = march (-262144) := congrArg march
  have hsame' : year = 262142 → march year = march 262142 := congrArg march
  obtain ⟨hd, hd', -⟩ := h
  clear hn
  split <;> constructor <;> omega

end PeakUsage.Date
