import PeakUsage.Text.Blank
import PeakUsage.Text.Digits
import PeakUsage.Time.Timestamp

/-! Times as text: written by the rules of RFC 3339, read with some tolerance for blanks. -/
namespace PeakUsage.Timestamp
open Text

/-- Years of four digits stand alone; others carry a sign and at least four digits. -/
def yearText (y : Int) : String :=
  if 0 ≤ y ∧ y ≤ 9999 then padded 4 y.toNat
  else if y < 0 then "-" ++ padded 4 y.natAbs
  else "+" ++ padded 4 y.natAbs

/-- A fraction of a second in 0, 3, 6 or 9 digits, the fewest that are exact. -/
def fractionText (nano : Nat) : String :=
  if nano = 0 then ""
  else if nano % 1000000 = 0 then "." ++ padded 3 (nano / 1000000)
  else if nano % 1000 = 0 then "." ++ padded 6 (nano / 1000)
  else "." ++ padded 9 nano

/-- The time in RFC 3339, ending in the given spelling of the zero offset. -/
def toRfc3339 (zone : String) (t : Timestamp) : String :=
  let date := Date.ofDays (t.second / secondsPerDay)
  let clock := (t.second % secondsPerDay).toNat
  let leap := t.nano / Nanos.second
  let second := clock % 60 + leap
  yearText date.year ++ "-" ++ padded 2 date.month ++ "-" ++ padded 2 date.day ++ "T" ++
    padded 2 (clock / 3600) ++ ":" ++ padded 2 (clock / 60 % 60) ++ ":" ++ padded 2 second ++
    fractionText (t.nano % Nanos.second) ++ zone

/-- The time ending in `Z`. -/
def text (t : Timestamp) : String := t.toRfc3339 "Z"

/-- The time ending in a numeric offset. -/
def label (t : Timestamp) : String := t.toRfc3339 "+00:00"

/-- The text after `c`, which blanks may precede. -/
def after? (c : Char) (cs : List Char) : Option (List Char) :=
  match skipBlanks cs with
  | x :: rest => if x = c then some rest else none
  | [] => none

/-- A number of one or two digits, which blanks may precede. -/
def pair? (cs : List Char) : Option (Nat × List Char) := number? 2 (skipBlanks cs)

/-- A year: up to four digits, or a sign and any number of them. -/
def year? (cs : List Char) : Option (Int × List Char) :=
  match skipBlanks cs with
  | '-' :: rest => (number? rest.length rest).map fun (n, rest) => (-n, rest)
  | '+' :: rest => (number? rest.length rest).map fun (n, rest) => ((n : Int), rest)
  | cs => (number? 4 cs).map fun (n, rest) => ((n : Int), rest)

/-- The fraction of a second in nanoseconds; digits beyond the ninth are dropped. -/
def fraction? : List Char → Option (Nat × List Char)
  | '.' :: cs => do
    let (n, rest) ← number? 9 cs
    let width := cs.length - rest.length
    pure (n * Nat.pow 10 (9 - width), rest.dropWhile isDigit)
  | cs => some (0, cs)

/-- Hours and minutes east of UTC, in seconds. -/
def hoursMinutes? : List Char → Option (Nat × List Char)
  | h :: h' :: cs =>
    match cs.dropWhile (fun c => c = ':' || isBlank c) with
    | m :: m' :: rest =>
      if isDigit h && isDigit h' && isDigit m && isDigit m' && ofDigits [m, m'] < 60 then
        some (ofDigits [h, h'] * 3600 + ofDigits [m, m'] * 60, rest)
      else none
    | _ => none
  | _ => none

/-- The distance from UTC in seconds: `Z`, `UTC`, or a sign, hours and minutes. -/
def offset? : List Char → Option (Int × List Char)
  | c :: cs =>
    if c = 'Z' || c = 'z' then some (0, cs)
    else if (String.ofList ((c :: cs).take 3)).toUpper = "UTC" then some (0, cs.drop 2)
    else if c = '+' then (hoursMinutes? cs).map fun (n, rest) => ((n : Int), rest)
    else if c = '-' || c = '−' then (hoursMinutes? cs).map fun (n, rest) => (-(n : Int), rest)
    else none
  | [] => none

/-- The time with the given date and time of day at an offset from UTC. The second 60 is a leap
second, which counts on from the second before it. -/
def ofLocal? (date : Date) (hour minute second nano : Nat) (offset : Int) : Option Timestamp :=
  if date.IsValid ∧ hour ≤ 23 ∧ minute ≤ 59 ∧ second ≤ 60 ∧ offset.natAbs < 86400 ∧
      -262143 ≤ date.year ∧ date.year ≤ 262142 then
    let leap := second / 60
    let clock : Int := hour * 3600 + minute * 60 + (second - leap)
    let utc := date.toDays * secondsPerDay + clock - offset
    if earliest.second ≤ utc ∧ utc ≤ latest.second then some ⟨utc, nano + leap * Nanos.second⟩
    else none
  else none

/-- Reads a time with its seconds and its offset, and nothing but blanks after them. -/
def read? (s : String) : Option Timestamp := do
  let (year, cs) ← year? s.toList
  let (month, cs) ← pair? (← after? '-' cs)
  let (day, cs) ← pair? (← after? '-' cs)
  let cs ← match cs with
    | c :: rest => if c = 'T' || c = 't' || c = ' ' then some rest else none
    | [] => none
  let (hour, cs) ← pair? cs
  let (minute, cs) ← pair? (← after? ':' cs)
  let (second, cs) ← pair? (← after? ':' cs)
  let (nano, cs) ← fraction? cs
  let (offset, cs) ← offset? (skipBlanks cs)
  if cs.all isBlank then ofLocal? ⟨year, month, day⟩ hour minute second nano offset else none

end PeakUsage.Timestamp
