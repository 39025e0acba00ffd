import PeakUsage.Number.Order
import PeakUsage.Text.Digits

/-! The decimals with the fewest digits that read back as a given binary64 number. -/
namespace PeakUsage.Number

/-- A positive finite magnitude `mantissa * 2 ^ exponent`, with the quarters of a unit in the last
place down to the midpoint below it; the midpoint above is two quarters away. -/
structure Scaled where
  mantissa : Nat
  exponent : Int
  below : Nat
deriving DecidableEq

/-- The parts of a positive finite magnitude. The gap below a power of two is half the gap above. -/
def Scaled.ofMagnitude (n : Nat) : Scaled :=
  let e : Nat := n / fractionSize
  let f : Nat := n % fractionSize
  if e = 0 then ⟨f, -1074, 2⟩
  else ⟨fractionSize + f, (e : Int) - 1075, if f = 0 ∧ 1 < e then 1 else 2⟩

namespace Scaled

/-- One quarter of a unit in the last place, in units of `10 ^ k / den s k`. -/
def quarter (s : Scaled) (k : Int) : Nat :=
  Nat.pow 2 (s.exponent - 2).toNat * Nat.pow 10 (-k).toNat

/-- The denominator that makes the number a fraction in units of `10 ^ k`. -/
def den (s : Scaled) (k : Int) : Nat :=
  Nat.pow 2 (2 - s.exponent).toNat * Nat.pow 10 k.toNat

/-- Whether `c * 10 ^ k` reads back as the number: it lies between the midpoints to the neighbouring
floats, which belong to the even mantissa. -/
def covers (s : Scaled) (k : Int) (c : Nat) : Bool :=
  let x := c * s.den k
  let low := (4 * s.mantissa - s.below) * s.quarter k
  let high := (4 * s.mantissa + 2) * s.quarter k
  if s.mantissa % 2 = 0 then low ≤ x && x ≤ high else low < x && x < high

/-- The multiple of `10 ^ k` nearest to the number among its two neighbours that read back as it; of
two equally near the even one. -/
def candidate (s : Scaled) (k : Int) : Option Nat :=
  let v := 4 * s.mantissa * s.quarter k
  let c := v / s.den k
  match s.covers k c, s.covers k (c + 1) with
  | true, true =>
    let down := v - c * s.den k
    let up := (c + 1) * s.den k - v
    if down < up ∨ (down = up ∧ c % 2 = 0) then some c else some (c + 1)
  | true, false => some c
  | false, true => some (c + 1)
  | false, false => none

/-- The first hit among the grids `10 ^ k`, `10 ^ (k - 1)`, …; each has one digit more. -/
def scan (s : Scaled) : Nat → Int → Nat × Int
  | 0, k => (4 * s.mantissa * s.quarter k / s.den k, k)
  | fuel + 1, k =>
    match s.candidate k with
    | some c => (c, k)
    | none => scan s fuel (k - 1)

/-- A decimal exponent above the number's first digit. -/
def topExponent (s : Scaled) : Int :=
  ((s.mantissa.log2 : Int) + 1 + s.exponent) * 30103 / 100000 + 1

/-- Digits and exponent of the shortest decimal; seventeen digits always suffice. -/
def shortest (s : Scaled) : Nat × Int := s.scan 24 s.topExponent

end Scaled

/-- `c * 10 ^ k` written without an exponent. -/
def positional (c : Nat) (k : Int) : String :=
  let ds := Nat.toDigits 10 c
  if 0 ≤ k then String.ofList (ds ++ List.replicate k.toNat '0')
  else
    let places := (-k).toNat
    if places < ds.length then
      String.ofList (ds.take (ds.length - places) ++ '.' :: ds.drop (ds.length - places))
    else String.ofList ('0' :: '.' :: (List.replicate (places - ds.length) '0' ++ ds))

/-- The number in the fewest digits that read back, without exponent and without a bare `.0`. -/
def text (x : Float) : String :=
  if isNaN x then "NaN"
  else
    let sign := if isNegative x then "-" else ""
    let n := magnitude x
    if n = infiniteMagnitude then sign ++ "inf"
    else if n = 0 then sign ++ "0"
    else
      let d := (Scaled.ofMagnitude n).shortest
      sign ++ positional d.1 d.2

end PeakUsage.Number
