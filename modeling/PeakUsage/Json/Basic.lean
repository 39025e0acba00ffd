/-! JSON values. -/
namespace PeakUsage

/-- A JSON value; members keep their order and may repeat a name. -/
inductive Json where
  | null
  | bool (b : Bool)
  /-- A numeral without point and exponent that fits in 64 bits, signed or unsigned. -/
  | integer (n : Int)
  /-- Any other numeral; one beyond the range of a float is infinite here. -/
  | real (x : Float)
  | string (s : String)
  /-- A string with half of a surrogate pair, which stands for no text. -/
  | garbled
  | array (items : List Json)
  | object (members : List (String × Json))

/-- Why a text or a value is not what was asked for. -/
inductive JsonFault where
  | malformed
  | unexpected
  | missing (field : String)
  | repeated (field : String)
  | surplus (field : String)
  | outOfRange
  | notATime
deriving DecidableEq

namespace Json

/-- The least and the greatest integer of 64 bits with a sign. -/
def minSigned : Int := -(UInt64.size / 2 : Nat)
def maxSigned : Int := (UInt64.size / 2 - 1 : Nat)

/-- The greatest integer of 64 bits without one. -/
def maxUnsigned : Int := (UInt64.size - 1 : Nat)

end Json
end PeakUsage
