import Std.Data.ExtTreeMap
import PeakUsage.Time.Nanos

/-! A cache whose entries have a deadline of their own and which has one as a whole. -/
namespace PeakUsage

/-- A kept value and the last moment it may be served. -/
structure Expiring.Entry (ν : Type) where
  value : ν
  deadline : Nat

/-- A cache from `κ` to `ν`. Every write moves the deadline of the whole cache, whichever key it
writes. -/
structure Expiring (κ ν : Type) [Ord κ] [Std.TransOrd κ] where
  entries : Std.ExtTreeMap κ (Expiring.Entry ν)
  /-- The deadline asked for by the last write; there is none before the first. -/
  deadline : Option Nat

namespace Expiring
variable {κ ν : Type} [Ord κ] [Std.TransOrd κ]

def empty : Expiring κ ν := ⟨∅, none⟩

/-- Whether the deadline of the whole cache has passed; it has before the first write. -/
def isExpired (c : Expiring κ ν) (now : Nat) : Bool :=
  match c.deadline with
  | some d => d < now
  | none => true

/-- Writes a key and moves both deadlines to `now + ttl`, unless there is no such moment. -/
def set (c : Expiring κ ν) (now : Nat) (k : κ) (v : ν) (ttl : Nat) :
    Except ClockFault (Expiring κ ν) :=
  (PeakUsage.deadline now ttl).map fun d => ⟨c.entries.insert k ⟨v, d⟩, some d⟩

/-- Whether a key is stored and neither deadline has passed. -/
def get? (c : Expiring κ ν) (now : Nat) (k : κ) : Option ν :=
  match c.entries[k]? with
  | some e => if c.isExpired now || e.deadline < now then none else some e.value
  | none => none

/-- What a look at a key leaves: a stored key that is not served is removed. -/
def touch (c : Expiring κ ν) (now : Nat) (k : κ) : Expiring κ ν :=
  if (c.get? now k).isSome then c else ⟨c.entries.erase k, c.deadline⟩

/-- Stored entries, served or not. -/
def size (c : Expiring κ ν) : Nat := c.entries.size

def isEmpty (c : Expiring κ ν) : Bool := c.entries.isEmpty

def keys (c : Expiring κ ν) : List κ := c.entries.keys

/-- What a look at each of the keys finds, in order. -/
def collect (c : Expiring κ ν) (now : Nat) : List κ → List ν
  | [] => []
  | k :: ks => ((c.get? now k).toList) ++ collect (c.touch now k) now ks

/-- What a look at each of the keys leaves. -/
def touchAll (c : Expiring κ ν) (now : Nat) (ks : List κ) : Expiring κ ν :=
  ks.foldl (fun c k => c.touch now k) c

end Expiring
end PeakUsage
