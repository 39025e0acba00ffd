/-! The order of binary64 numbers, read off their bits. -/
namespace PeakUsage.Number

/-- The weight of the sign among the bits. -/
def signWeight : Nat := UInt64.size / 2

/-- How many fractions there are: the mantissa keeps 52 bits. -/
def fractionSize : Nat := 0x10000000000000

/-- The bits without the sign. -/
def magnitude (x : Float) : Nat := x.toBits.toNat % signWeight

def isNegative (x : Float) : Bool := signWeight ≤ x.toBits.toNat

/-- The magnitude of the infinities; every greater one is a NaN. -/
def infiniteMagnitude : Nat := 2047 * fractionSize

def isNaN (x : Float) : Bool := infiniteMagnitude < magnitude x

def isFinite (x : Float) : Bool := magnitude x < infiniteMagnitude

/-- The place of a number in the order of all floats; both zeros have place 0, a NaN has none. -/
def rank (x : Float) : Option Int :=
  if isNaN x then none
  else if isNegative x then some (-(magnitude x : Int))
  else some (magnitude x)

/-- Whether `x` is at most `y`; false when either is a NaN. -/
def atMost (x y : Float) : Bool :=
  match rank x, rank y with
  | some m, some n => m ≤ n
  | _, _ => false

/-- The greater of two numbers. A NaN gives way to the other one, and of two equal ones the first is
kept. -/
def greater (x y : Float) : Float :=
  match rank x, rank y with
  | some m, some n => if m < n then y else x
  | none, _ => y
  | _, none => x

/-- The greatest of a list of numbers and `start`, compared from the left. -/
def greatest (start : Float) (xs : List Float) : Float := xs.foldl greater start

theorem rank_greater {x y : Float} {m n : Int} (hx : rank x = some m) (hy : rank y = some n) :
    rank (greater x y) = some (max m n) := by
  unfold greater
  rw [hx, hy]
  by_cases h : m < n
  · simp only [h, if_true, hy]
    congr 1
    omega
  · simp only [h, if_false, hx]
    congr 1
    omega

theorem greater_of_isNaN {x y : Float} (h : rank y = none) (hx : rank x ≠ none) :
    greater x y = x := by
  unfold greater
  cases hr : rank x with
  | none => exact absurd hr hx
  | some m => rw [h]

end PeakUsage.Number
