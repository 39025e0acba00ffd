import PeakUsage.Time.Nanos

/-! Wall-clock times on the proleptic Gregorian calendar in UTC. -/
namespace PeakUsage

/-- A day of the proleptic Gregorian calendar; the year before 1 is 0. -/
structure Date where
  year : Int
  month : Nat
  day : Nat
deriving DecidableEq

namespace Date

def isLeapYear (y : Int) : Bool := y % 4 = 0 && (y % 100 ≠ 0 || y % 400 = 0)

def daysInMonth (y : Int) (m : Nat) : Nat :=
  if m = 2 then (if isLeapYear y then 29 else 28)
  else if m = 4 ∨ m = 6 ∨ m = 9 ∨ m = 11 then 30
  else 31

def IsValid (d : Date) : Prop :=
  1 ≤ d.month ∧ d.month ≤ 12 ∧ 1 ≤ d.day ∧ d.day ≤ daysInMonth d.year d.month

instance (d : Date) : Decidable d.IsValid := by unfold IsValid; infer_instance

/-- Days from 1970-01-01; years are counted from March, so that a leap day ends its year. -/
def toDays (d : Date) : Int :=
  let y := if d.month ≤ 2 then d.year - 1 else d.year
  let era := y / 400
  let yearOfEra := y - era * 400
  let monthFromMarch : Int := if d.month > 2 then d.month - 3 else d.month + 9
  let dayOfYear := (153 * monthFromMarch + 2) / 5 + d.day - 1
  let dayOfEra := yearOfEra * 365 + yearOfEra / 4 - yearOfEra / 100 + dayOfYear
  era * 146097 + dayOfEra - 719468

/-- The date `n` days after 1970-01-01. -/
def ofDays (n : Int) : Date :=
  let z := n + 719468
  let era := z / 146097
  let dayOfEra := z - era * 146097
  let yearOfEra := (dayOfEra - dayOfEra / 1460 + dayOfEra / 36524 - dayOfEra / 146096) / 365
  let dayOfYear := dayOfEra - (365 * yearOfEra + yearOfEra / 4 - yearOfEra / 100)
  let monthFromMarch := (5 * dayOfYear + 2) / 153
  let day := dayOfYear - (153 * monthFromMarch + 2) / 5 + 1
  let month := if monthFromMarch < 10 then monthFromMarch + 3 else monthFromMarch - 9
  let year := yearOfEra + era * 400
  ⟨if month ≤ 2 then year + 1 else year, month.toNat, day.toNat⟩

end Date

/-- A point in UTC. -/
structure Timestamp where
  /-- Whole seconds since 1970-01-01T00:00:00Z. -/
  second : Int
  /-- Nanoseconds past `second`; inside a leap second the count goes on from 10⁹. -/
  nano : Nat
deriving DecidableEq

namespace Timestamp

def secondsPerDay : Int := 86400

/-- Whether the time lies inside a leap second. -/
def IsLeap (t : Timestamp) : Prop := Nanos.second ≤ t.nano

instance (t : Timestamp) : Decidable t.IsLeap := by unfold IsLeap; infer_instance

/-- Nanoseconds since 1970-01-01T00:00:00Z. -/
def nanos (t : Timestamp) : Int := t.second * Nanos.second + t.nano

/-- The time outside any leap second with the given count of nanoseconds. -/
def ofNanos (n : Int) : Timestamp := ⟨n / Nanos.second, (n % Nanos.second).toNat⟩

/-- The first time there is. -/
def earliest : Timestamp := ⟨Date.toDays ⟨-262143, 1, 1⟩ * secondsPerDay, 0⟩

/-- The last whole second there is. -/
def latest : Timestamp := ⟨Date.toDays ⟨262142, 12, 31⟩ * secondsPerDay + 86399, 0⟩

/-- The time `d` later. A leap second is left by counting it as the second before it. -/
def add (t : Timestamp) (d : Nat) : Timestamp :=
  if t.IsLeap then
    if t.nano + d < 2 * Nanos.second then ⟨t.second, t.nano + d⟩
    else ofNanos (t.nanos - Nanos.second + d)
  else ofNanos (t.nanos + d)

/-- The time `d` earlier on an unbounded calendar. -/
def sub (t : Timestamp) (d : Nat) : Timestamp :=
  if t.IsLeap ∧ d < Nanos.second then ⟨t.second, t.nano - d⟩ else ofNanos (t.nanos - d)

/-- Taking lengths of time off times, in two steps that each have a range of their own: a length is
made a span, and the span is taken off a time. -/
structure Arithmetic (Span : Type) where
  span? : Nat → Option Span
  sub? : Timestamp → Span → Option Timestamp

/-- The time `d` earlier, or the first time there is when one of the steps fails. -/
def Arithmetic.back {Span : Type} (a : Arithmetic Span) (t : Timestamp) (d : Nat) : Timestamp :=
  ((a.span? d).bind (a.sub? t)).getD earliest

/-- The longest span: its milliseconds are counted in 63 bits. -/
def longestSpan : Nat := (UInt64.size / 2 - 1) * 1000000

/-- The arithmetic of the calendar, which knows no longer span and no time outside its years. -/
def calendar : Arithmetic Nat where
  span? d := if d ≤ longestSpan then some d else none
  sub? t d :=
    let u := t.sub d
    if earliest.second ≤ u.second ∧ u.second ≤ latest.second then some u else none

/-- The time `d` earlier, or the first time there is. -/
def back (t : Timestamp) (d : Nat) : Timestamp := calendar.back t d

theorem nanos_ofNanos (n : Int) : (ofNanos n).nanos = n := by
  have h : (0 : Int) < (Nanos.second : Nat) := by decide
  have hm := Int.emod_nonneg n (Int.ne_of_gt h)
  simp only [ofNanos, nanos, Int.toNat_of_nonneg hm]
  exact Int.ediv_mul_add_emod n _

end Timestamp
end PeakUsage
