/-! Lengths of time and readings of the monotonic clock: natural numbers of nanoseconds. -/
namespace PeakUsage

namespace Nanos

def second : Nat := 1000000000

theorem second_eq : second = 1000000000 := rfl

def ofSeconds (n : Nat) : Nat := n * second

def seconds (d : Nat) : Nat := d / second

/-- What a length of time has beyond its whole seconds. -/
def subsecond (d : Nat) : Nat := d % second

def millis (d : Nat) : Nat := d / 1000000

/-- A length of time in seconds; whole seconds and fraction are rounded on their own, then added. -/
def toFloat (d : Nat) : Float := Float.ofNat (seconds d) + Float.ofNat (subsecond d) / 1e9

theorem seconds_add_subsecond (d : Nat) : seconds d * second + subsecond d = d :=
  Nat.div_add_mod' d second

/-- The monotonic clock counts its seconds in 63 bits: the first reading it cannot show. -/
def horizon : Nat := UInt64.size / 2 * second

end Nanos

/-- What can go wrong with a reading of the clock. -/
inductive ClockFault where
  /-- A deadline lies beyond the last reading the clock can show. -/
  | pastHorizon
deriving DecidableEq

def ClockFault.message : ClockFault → String
  | .pastHorizon => "overflow when adding duration to instant"

/-- The reading `ttl` after `now`, if the clock can show it. -/
def deadline (now ttl : Nat) : Except ClockFault Nat :=
  if now + ttl < Nanos.horizon then .ok (now + ttl) else .error .pastHorizon

theorem deadline_eq_ok_iff {now ttl d : Nat} :
    deadline now ttl = .ok d ↔ now + ttl < Nanos.horizon ∧ d = now + ttl := by
  unfold deadline
  split
  · simp_all [eq_comm]
  · exact ⟨nofun, fun h => absurd h.1 (by assumption)⟩

end PeakUsage
