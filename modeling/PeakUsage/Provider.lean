import PeakUsage.Failure
import PeakUsage.Resource
import PeakUsage.Time.Clock

/-! The calls made to a provider and what it answers. -/
namespace PeakUsage

structure InstanceRow where
  identifier : String
  instanceClass : String
  engine : String
  tags : Tags

/-- A row of a listing of database clusters; not every family reports a class. -/
structure ClusterRow where
  identifier : String
  instanceClass : Option String
  engine : String
  tags : Tags

structure CacheRow where
  identifier : String
  nodeType : String
  engine : String
deriving DecidableEq

structure StreamingRow where
  name : String
  instanceType : String
  brokerCount : Nat
deriving DecidableEq

/-- The rows a family is listed in. -/
abbrev Family.Row : Family → Type
  | .relationalInstance => InstanceRow
  | .relationalCluster => ClusterRow
  | .documentInstance => InstanceRow
  | .documentCluster => ClusterRow
  | .keyValueCache => CacheRow
  | .streaming => StreamingRow

inductive Request where
  | list (family : Family)
  | statistics (query : MetricQuery)
deriving DecidableEq

/-- What a call is answered with when nothing goes wrong. -/
abbrev Request.Answer : Request → Type
  | .list family => List family.Row
  | .statistics _ => List Datapoint

abbrev Reply (r : Request) : Type := Except Refusal r.Answer

/-- A provider with memory `π`: how long it takes over a call, and what it answers when that time is
over. Both may depend on everything it was asked before. -/
structure Provider (π : Type) where
  latency : π → Clock → Request → Nat
  answer : π → Clock → (r : Request) → Reply r × π

/-- Whether a reply says that the credentials were rejected. -/
def Reply.isUnauthorized {r : Request} : Reply r → Bool
  | .error e => e.isUnauthorized
  | .ok _ => false

end PeakUsage
