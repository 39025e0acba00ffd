import PeakUsage.Proofs.Exceptional
import PeakUsage.Proofs.Text.Digits
import PeakUsage.Proofs.Time.Calendar
import PeakUsage.Time.Rfc3339

/-! Times read back as they were written. -/
namespace PeakUsage.Timestamp
open Text

/-- The times that are read: within the years there are, and inside a leap second only at the end of
a minute. -/
structure InCalendar (t : Timestamp) : Prop where
  first : earliest.second ≤ t.second
  last : t.second ≤ latest.second
  nano_lt : t.nano < 2 * Nanos.second
  leap : t.IsLeap → t.second % 60 = 59

section
variable {ds cs rest : List Char} {c : Char} {n width : Nat}

/-! ### Parts of a time -/

theorem skipBlanks_cons (hc : isBlank c = false) : skipBlanks (c :: rest) = c :: rest :=
  List.dropWhile_cons_of_neg (by rw [hc]; decide)

theorem isBlank_of_isDigit (hc : isDigit c = true) : isBlank c = false := by
  simp only [isDigit, Bool.and_eq_true, decide_eq_true_eq, Char.le_def,
    UInt32.le_iff_toNat_le] at hc
  have hzero : ('0' : Char).val.toNat = 48 := rfl
  have hnine : ('9' : Char).val.toNat = 57 := rfl
  have hcode : c.toNat = c.val.toNat := rfl
  simp only [isBlank, Bool.or_eq_false_iff, Bool.and_eq_false_iff, decide_eq_false_iff_not]
  omega

theorem skipBlanks_digits (hd : Digits ds) (hne : ds ≠ []) :
    skipBlanks (ds ++ rest) = ds ++ rest := by
  cases ds with
  | nil => exact absurd rfl hne
  | cons d ds => exact skipBlanks_cons (isBlank_of_isDigit (hd d List.mem_cons_self))

theorem after?_cons (hc : isBlank c = false) : after? c (c :: rest) = some rest := by
  rw [after?, skipBlanks_cons hc]
  exact if_pos rfl

theorem pair?_padded (hn : n < 100) (rest : List Char) :
    pair? ((padded 2 n).toList ++ rest) = some (n, rest) := by
  rw [pair?, skipBlanks_digits (digits_padded 2 n) (padded_ne_nil 2 n),
    number?_padded Nat.two_pos hn]

/-- A year with a sign may have any number of digits. -/
theorem number?_all (m : Nat) (hrest : NoDigit rest) :
    number? ((padded 4 m).toList ++ rest).length ((padded 4 m).toList ++ rest) =
      some (m, rest) := by
  rw [number?_of_length_le (digits_padded 4 m) (padded_ne_nil 4 m) (by simp) (.inr hrest),
    ofDigits_padded]

theorem year?_four {m : Nat} (hm : m < 10 ^ 4) (rest : List Char) :
    year? ((padded 4 m).toList ++ rest) = some ((m : Int), rest) := by
  have hread := number?_padded (by decide : 0 < 4) hm rest
  have hdigits := digits_padded 4 m
  rw [year?, skipBlanks_digits hdigits (padded_ne_nil 4 m)]
  cases hcs : (padded 4 m).toList with
  | nil => exact absurd hcs (padded_ne_nil 4 m)
  | cons d ds =>
    rw [hcs] at hread hdigits
    have hd := hdigits d List.mem_cons_self
    rw [List.cons_append] at hread ⊢
    split
    · next heq => exact absurd (List.cons.inj heq).1 (ne_of_isDigit hd rfl)
    · next heq => exact absurd (List.cons.inj heq).1 (ne_of_isDigit hd rfl)
    · rw [hread]
      rfl

theorem year?_minus (m : Nat) (hrest : NoDigit rest) :
    year? ('-' :: ((padded 4 m).toList ++ rest)) = some (-(m : Int), rest) := by
  rw [year?, skipBlanks_cons rfl]
  split
  · next heq =>
    obtain ⟨-, rfl⟩ := List.cons.inj heq
    rw [number?_all m hrest]
    rfl
  · next heq => exact absurd (List.cons.inj heq).1 (by decide)
  · next hminus _ => exact absurd rfl (hminus _)

theorem year?_plus (m : Nat) (hrest : NoDigit rest) :
    year? ('+' :: ((padded 4 m).toList ++ rest)) = some ((m : Int), rest) := by
  rw [year?, skipBlanks_cons rfl]
  split
  · next heq => exact absurd (List.cons.inj heq).1 (by decide)
  · next heq =>
    obtain ⟨-, rfl⟩ := List.cons.inj heq
    rw [number?_all m hrest]
    rfl
  · next _ hplus => exact absurd rfl (hplus _)

theorem year?_yearText (y : Int) (hrest : NoDigit rest) :
    year? ((yearText y).toList ++ rest) = some (y, rest) := by
  rw [yearText]
  split
  · rw [year?_four (by omega), Int.toNat_of_nonneg (by omega)]
  split
  · have hminus : "-".toList = ['-'] := rfl
    rw [String.toList_append, hminus, List.append_assoc, List.singleton_append,
      year?_minus y.natAbs hrest, Int.ofNat_natAbs_of_nonpos (by omega), Int.neg_neg]
  · have hplus : "+".toList = ['+'] := rfl
    rw [String.toList_append, hplus, List.append_assoc, List.singleton_append,
      year?_plus y.natAbs hrest, Int.natAbs_of_nonneg (by omega)]

/-- Fewer digits stand for nanoseconds that are a multiple. -/
theorem fraction?_padded {k : Nat} (hk : 0 < k) (hle : k ≤ 9) (hn : n < 10 ^ k)
    (hrest : NoDigit rest) :
    fraction? ('.' :: ((padded k n).toList ++ rest)) = some (n * 10 ^ (9 - k), rest) := by
  have hlength := length_padded hk hn
  have hread : number? 9 ((padded k n).toList ++ rest) = some (n, rest) := by
    rw [number?_of_length_le (digits_padded k n) (padded_ne_nil k n) (hlength.trans_le hle)
      (.inr hrest), ofDigits_padded]
  have hdrop : rest.dropWhile isDigit = rest := by
    cases rest with
    | nil => rfl
    | cons c cs => exact List.dropWhile_cons_of_neg (by rw [hrest c rfl]; decide)
  rw [fraction?, hread]
  simp only [Option.bind_eq_bind, Option.bind_some, hdrop, List.length_append, hlength,
    Nat.add_sub_cancel]
  rfl

theorem fraction?_fractionText {nano : Nat} (hnano : nano < Nanos.second)
    (rest : List Char) :
    fraction? ((fractionText nano).toList ++ 'Z' :: rest) = some (nano, 'Z' :: rest) := by
  have hend : NoDigit ('Z' :: rest) := noDigit_cons rfl
  have hsecond : Nanos.second = 1000000000 := rfl
  have hpoint (s : String) : ("." ++ s).toList ++ 'Z' :: rest = '.' :: (s.toList ++ 'Z' :: rest) := by
    rw [String.toList_append]
    rfl
  rw [fractionText]
  split
  · next hzero =>
    rw [hzero]
    rfl
  split
  · rw [hpoint, fraction?_padded (by decide) (by decide) (by omega) hend]
    congr 2
    omega
  split
  · rw [hpoint, fraction?_padded (by decide) (by decide) (by omega) hend]
    congr 2
    omega
  · rw [hpoint, fraction?_padded (by decide) (by decide) (by omega) hend]
    congr 2
    omega

/-! ### Dates and times of day -/

/-- The second of the day in which a time falls. -/
def clock (t : Timestamp) : Nat := (t.second % secondsPerDay).toNat

variable {t : Timestamp}

theorem InCalendar.ofLocal? (h : InCalendar t) :
    ofLocal? (Date.ofDays (t.second / secondsPerDay)) (t.clock / 3600) (t.clock / 60 % 60)
      (t.clock % 60 + t.nano / Nanos.second) (t.nano % Nanos.second) 0 = some t := by
  obtain ⟨hfirst, hlast, hnano, hleap⟩ := h
  have hday : secondsPerDay = 86400 := rfl
  have hsecond : Nanos.second = 1000000000 := rfl
  have hclock : (t.clock : Int) = t.second % 86400 := by
    rw [clock, hday]
    omega
  have hearliest : earliest.second = Date.toDays ⟨-262143, 1, 1⟩ * 86400 := rfl
  have hlatest : latest.second = Date.toDays ⟨262142, 12, 31⟩ * 86400 + 86399 := rfl
  have hyear : -262143 ≤ (Date.ofDays (t.second / secondsPerDay)).year ∧
      (Date.ofDays (t.second / secondsPerDay)).year ≤ 262142 := by
    rw [hday]
    exact Date.year_ofDays_bounds (by omega) (by omega)
  have hcount : t.nano / Nanos.second = 0 ∨ t.nano / Nanos.second = 1 ∧ t.clock % 60 = 59 := by
    rcases Nat.lt_or_ge t.nano Nanos.second with hlt | hge
    · exact .inl (Nat.div_eq_of_lt hlt)
    · have hend := hleap hge
      refine .inr ⟨?_, by omega⟩
      rw [hsecond] at hge hnano ⊢
      omega
  have hleapSecond : (t.clock % 60 + t.nano / Nanos.second) / 60 = t.nano / Nanos.second := by
    omega
  have hutc : t.second / 86400 * 86400 + (((t.clock / 3600 : Nat) : Int) * 3600 +
      ((t.clock / 60 % 60 : Nat) : Int) * 60 + (((t.clock % 60 + t.nano / Nanos.second : Nat) : Int) -
      (t.nano / Nanos.second : Nat))) - 0 = t.second := by
    omega
  rw [Timestamp.ofLocal?, if_pos ⟨Date.isValid_ofDays _, by omega, by omega, by omega, by decide,
    hyear⟩, Date.toDays_ofDays, hday]
  dsimp only
  rw [hleapSecond, hutc, if_pos ⟨hfirst, hlast⟩, Nat.mod_add_div']

theorem toList_text (t : Timestamp) :
    let date := Date.ofDays (t.second / secondsPerDay)
    t.text.toList = (yearText date.year).toList ++ '-' :: ((padded 2 date.month).toList ++
      '-' :: ((padded 2 date.day).toList ++ 'T' :: ((padded 2 (t.clock / 3600)).toList ++
      ':' :: ((padded 2 (t.clock / 60 % 60)).toList ++
      ':' :: ((padded 2 (t.clock % 60 + t.nano / Nanos.second)).toList ++
      ((fractionText (t.nano % Nanos.second)).toList ++ ['Z'])))))) := by
  have hdash : "-".toList = ['-'] := rfl
  have htime : "T".toList = ['T'] := rfl
  have hcolon : ":".toList = [':'] := rfl
  have hzulu : "Z".toList = ['Z'] := rfl
  dsimp only
  rw [text, toRfc3339, clock]
  simp only [String.toList_append, List.append_assoc, hdash, htime, hcolon, hzulu,
    List.cons_append, List.nil_append]

/-! ### What is read -/

theorem fraction?_lt {nano : Nat} (h : fraction? cs = some (nano, rest)) :
    nano < Nanos.second := by
  unfold fraction? at h
  split at h
  · next digits =>
    obtain ⟨⟨n, rest'⟩, hread, h⟩ := Option.bind_eq_some_iff.mp h
    obtain ⟨k, hk, hlength, hn⟩ := exists_of_number? hread
    obtain ⟨rfl, -⟩ := Prod.mk.inj (Option.some.inj h)
    have hwidth : digits.length - rest'.length = k := by omega
    rw [hwidth]
    calc n * 10 ^ (9 - k) < 10 ^ k * 10 ^ (9 - k) :=
          Nat.mul_lt_mul_of_pos_right hn (Nat.pow_pos (by decide))
      _ = Nanos.second := by rw [← pow_add, Nat.add_sub_cancel' hk]; rfl
  · obtain ⟨rfl, -⟩ := Prod.mk.inj (Option.some.inj h)
    decide

theorem hoursMinutes?_mod (h : hoursMinutes? cs = some (n, rest)) : n % 60 = 0 := by
  unfold hoursMinutes? at h
  split at h
  · split at h
    · split at h
      · obtain ⟨rfl, -⟩ := Prod.mk.inj (Option.some.inj h)
        omega
      · cases h
    · cases h
  · cases h

/-- Offsets are whole minutes. -/
theorem offset?_mod {offset : Int} (h : offset? cs = some (offset, rest)) : offset % 60 = 0 := by
  unfold offset? at h
  split at h
  · split at h
    · obtain ⟨rfl, -⟩ := Prod.mk.inj (Option.some.inj h)
      rfl
    split at h
    · obtain ⟨rfl, -⟩ := Prod.mk.inj (Option.some.inj h)
      rfl
    split at h
    · obtain ⟨⟨n, _⟩, hread, hn⟩ := Option.map_eq_some_iff.mp h
      obtain ⟨rfl, -⟩ := Prod.mk.inj hn
      have hmod := hoursMinutes?_mod hread
      omega
    split at h
    · obtain ⟨⟨n, _⟩, hread, hn⟩ := Option.map_eq_some_iff.mp h
      obtain ⟨rfl, -⟩ := Prod.mk.inj hn
      have hmod := hoursMinutes?_mod hread
      omega
    · cases h
  · cases h

theorem inCalendar_of_ofLocal? {date : Date} {hour minute second nano : Nat} {offset : Int}
    (hnano : nano < Nanos.second) (hoffset : offset % 60 = 0)
    (h : Timestamp.ofLocal? date hour minute second nano offset = some t) : InCalendar t := by
  have hday : secondsPerDay = 86400 := rfl
  have hsize : Nanos.second = 1000000000 := rfl
  unfold Timestamp.ofLocal? at h
  split at h
  · next hvalid =>
    obtain ⟨-, -, -, hsecond, -⟩ := hvalid
    dsimp only at h
    split at h
    · next hutc =>
      obtain rfl := Option.some.inj h
      refine ⟨hutc.1, hutc.2, ?_, fun hleap => ?_⟩
      · dsimp only
        rw [hsize] at hnano ⊢
        omega
      · have hsixty : second / 60 = 1 := by
          rw [IsLeap, hsize] at hleap
          rw [hsize] at hnano
          dsimp only at hleap
          omega
        dsimp only
        rw [hday]
        omega
    · cases h
  · cases h

/-- What is read is a time that there is. -/
theorem inCalendar_of_read? {s : String} (h : read? s = some t) : InCalendar t := by
  rw [read?] at h
  obtain ⟨_, -, h⟩ := Option.bind_eq_some_iff.mp h
  obtain ⟨_, -, h⟩ := Option.bind_eq_some_iff.mp h
  obtain ⟨_, -, h⟩ := Option.bind_eq_some_iff.mp h
  obtain ⟨_, -, h⟩ := Option.bind_eq_some_iff.mp h
  obtain ⟨⟨_, cs⟩, -, h⟩ := Option.bind_eq_some_iff.mp h
  cases cs with
  | nil => cases h
  | cons c cs =>
    dsimp only at h
    split at h
    · obtain ⟨_, -, h⟩ := Option.bind_eq_some_iff.mp h
      obtain ⟨_, -, h⟩ := Option.bind_eq_some_iff.mp h
      obtain ⟨_, -, h⟩ := Option.bind_eq_some_iff.mp h
      obtain ⟨_, -, h⟩ := Option.bind_eq_some_iff.mp h
      obtain ⟨_, -, h⟩ := Option.bind_eq_some_iff.mp h
      obtain ⟨_, -, h⟩ := Option.bind_eq_some_iff.mp h
      obtain ⟨⟨nano, _⟩, hnano, h⟩ := Option.bind_eq_some_iff.mp h
      obtain ⟨⟨offset, _⟩, hoffset, h⟩ := Option.bind_eq_some_iff.mp h
      dsimp only at h
      split at h
      · exact inCalendar_of_ofLocal? (fraction?_lt hnano) (offset?_mod hoffset) h
      · cases h
    · cases h

/-- A time is read part by part. -/
theorem read?_of_parts {s : String} {year : Int} {month day hour minute second nano : Nat}
    {cs₁ cs₂ cs₃ cs₄ cs₅ cs₆ cs₇ cs₈ cs₉ cs₁₀ cs₁₁ : List Char}
    (hyear : year? s.toList = some (year, cs₁)) (hdash : after? '-' cs₁ = some cs₂)
    (hmonth : pair? cs₂ = some (month, cs₃)) (hdash' : after? '-' cs₃ = some cs₄)
    (hday : pair? cs₄ = some (day, 'T' :: cs₅)) (hhour : pair? cs₅ = some (hour, cs₆))
    (hcolon : after? ':' cs₆ = some cs₇) (hminute : pair? cs₇ = some (minute, cs₈))
    (hcolon' : after? ':' cs₈ = some cs₉) (hsecond : pair? cs₉ = some (second, cs₁₀))
    (hfraction : fraction? cs₁₀ = some (nano, cs₁₁)) (hoffset : cs₁₁ = ['Z']) :
    read? s = Timestamp.ofLocal? ⟨year, month, day⟩ hour minute second nano 0 := by
  have hzulu : offset? (skipBlanks ['Z']) = some (0, []) := by decide
  subst hoffset
  rw [read?]
  refine (bind_of_some hyear _).trans ?_
  refine (bind_of_some hdash _).trans ?_
  refine (bind_of_some hmonth _).trans ?_
  refine (bind_of_some hdash' _).trans ?_
  refine (bind_of_some hday _).trans ?_
  refine (bind_of_some hhour _).trans ?_
  refine (bind_of_some hcolon _).trans ?_
  refine (bind_of_some hminute _).trans ?_
  refine (bind_of_some hcolon' _).trans ?_
  refine (bind_of_some hsecond _).trans ?_
  refine (bind_of_some hfraction _).trans ?_
  exact bind_of_some hzulu _

/-- A time is read back from its text. -/
theorem InCalendar.read?_text (h : InCalendar t) : read? t.text = some t := by
  have hclock : t.clock < 86400 := by
    have hday : secondsPerDay = 86400 := rfl
    rw [clock, hday]
    omega
  have hleap : t.nano / Nanos.second < 2 := (Nat.div_lt_iff_lt_mul (by decide)).mpr h.nano_lt
  obtain ⟨-, hmonth, -, hday⟩ := Date.isValid_ofDays (t.second / secondsPerDay)
  have hmonth' : (Date.ofDays (t.second / secondsPerDay)).month < 100 :=
    Nat.lt_of_le_of_lt hmonth (by decide)
  have hday' : (Date.ofDays (t.second / secondsPerDay)).day < 100 :=
    Nat.lt_of_le_of_lt (hday.trans (Date.daysInMonth_le _ _)) (by decide)
  rw [← h.ofLocal?]
  refine read?_of_parts ?_ (after?_cons (by decide)) (pair?_padded hmonth' _)
    (after?_cons (by decide)) (pair?_padded hday' _) (pair?_padded (by omega) _)
    (after?_cons (by decide)) (pair?_padded (by omega) _) (after?_cons (by decide))
    (pair?_padded (by omega) _) (fraction?_fractionText (Nat.mod_lt t.nano (by decide)) []) rfl
  rw [toList_text]
  exact year?_yearText _ (noDigit_cons rfl)

end

end PeakUsage.Timestamp
