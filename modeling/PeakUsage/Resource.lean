import Std.Data.ExtTreeMap
import PeakUsage.Engine
import PeakUsage.Text.Digits
import PeakUsage.Time.Timestamp

/-! Provisioned resources, and the keys their usage is kept under. -/
namespace PeakUsage

/-- What one row of the inventory stands for. -/
inductive Level where
  | node
  | cluster
  | broker
deriving DecidableEq

def Level.name : Level → String
  | .node => "Instance"
  | .cluster => "Cluster"
  | .broker => "Broker"

structure Resource where
  identifier : String
  instanceClass : String
  engine : Engine
  level : Level
  /-- The metric dimension the identifier is published under. -/
  dimension : String
  /-- Which broker of its cluster a row of level `broker` is. -/
  brokerId : Option Nat
  /-- Brokers in the streaming cluster, 0 elsewhere. -/
  brokerCount : Nat
  collectedAt : Timestamp
deriving DecidableEq

def brokerKey (cluster : String) (id : Nat) : String := cluster ++ "-" ++ Text.decimal id

/-- The broker a key names: its text after the last dash, all of it when there is none. -/
def brokerOfKey (key : String) : String :=
  String.ofList (key.toList.reverse.takeWhile (· ≠ '-')).reverse

/-- The key a resource's usage is kept and published under. Brokers share the identifier of their
cluster, so their number is part of the key. -/
def Resource.usageKey (r : Resource) : String :=
  match r.level, r.brokerId with
  | .broker, some id => brokerKey r.identifier id
  | _, _ => r.identifier

abbrev Tags := Std.ExtTreeMap String String

/-- How many tags the rows of this deployment carry. -/
def expectedTagCount : Nat := 3

/-- Whether a tagged resource belongs to this deployment: exactly three tags are expected, and it
carries each of them with the same value. -/
def Tags.matches (expected target : Tags) : Bool :=
  !target.isEmpty && expected.size = expectedTagCount &&
    expected.toList.all fun (name, value) => target[name]? = some value

end PeakUsage
