import PeakUsage.Time.Timestamp

/-! The two clocks a program reads, which move together. -/
namespace PeakUsage

/-- A reading of the monotonic clock and of the wall clock at the same moment. -/
structure Clock where
  now : Nat
  wall : Timestamp
deriving DecidableEq

/-- Both clocks `d` later. -/
def Clock.advance (c : Clock) (d : Nat) : Clock := ⟨c.now + d, c.wall.add d⟩

@[simp] theorem Clock.advance_now (c : Clock) (d : Nat) : (c.advance d).now = c.now + d := rfl

end PeakUsage
