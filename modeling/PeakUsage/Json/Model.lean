import PeakUsage.Exporter
import PeakUsage.Json.Decode

/-! The JSON forms of the domain's values. -/
namespace PeakUsage
open Json

namespace Engine

def toJson (e : Engine) : Json := .string e.name

def ofJson? : Decoder Engine := fun j => (asText j).map ofName

end Engine

namespace Level

def toJson (l : Level) : Json := .string l.name

def ofJson? : Decoder Level :=
  asChoice [("Instance", .node), ("Cluster", .cluster), ("Broker", .broker)]

end Level

namespace Figure

def toJson (f : Figure) : Json := .string f.name

def ofJson? : Decoder Figure := asChoice [("cpu", .cpu), ("memory", .memory)]

end Figure

namespace Statistic

def toJson (s : Statistic) : Json := .string s.name

def ofJson? : Decoder Statistic := asChoice [("Maximum", .maximum)]

end Statistic

namespace Status

def toJson (s : Status) : Json := .string s.name

def ofJson? : Decoder Status :=
  asChoice [("healthy", .healthy), ("degraded", .degraded), ("unhealthy", .unhealthy)]

end Status

def Timestamp.toJson (t : Timestamp) : Json := .string t.text

namespace Resource

def toJson (r : Resource) : Json :=
  .object [("identifier", .string r.identifier), ("instance_class", .string r.instanceClass),
    ("engine", r.engine.toJson), ("level", r.level.toJson),
    ("identifier_field_name", .string r.dimension), ("broker_id", ofOption ofNat r.brokerId),
    ("broker_count", ofNat r.brokerCount), ("collected_time", r.collectedAt.toJson)]

def ofJson? : Decoder Resource := fun j => do
  let r ← asRecord ["identifier", "instance_class", "engine", "level", "identifier_field_name",
    "broker_id", "broker_count", "collected_time"] 0 j
  pure ⟨← required r "identifier" asText, ← required r "instance_class" asText,
    ← required r "engine" Engine.ofJson?, ← required r "level" Level.ofJson?,
    ← required r "identifier_field_name" asText, ← optional r "broker_id" (asNatural UInt32.size),
    ← required r "broker_count" (asNatural UInt32.size), ← required r "collected_time" asTime⟩

end Resource

namespace Dimension

def toJson (d : Dimension) : Json :=
  .object [("name", .string d.name), ("value", .string d.value)]

def ofJson? : Decoder Dimension := fun j => do
  let r ← asRecord ["name", "value"] 0 j
  pure ⟨← required r "name" asText, ← required r "value" asText⟩

end Dimension

namespace MetricQuery

def toJson (q : MetricQuery) : Json :=
  .object [("namespace", .string q.metricNamespace), ("metric_name", .string q.metric),
    ("dimensions", .array (q.dimensions.map Dimension.toJson)), ("start", q.start.toJson),
    ("end", q.stop.toJson), ("period", ofPeriod q.period), ("statistic", q.statistic.toJson)]

def ofJson? : Decoder MetricQuery := fun j => do
  let r ← asRecord ["namespace", "metric_name", "dimensions", "start", "end", "period",
    "statistic"] 0 j
  pure ⟨← required r "namespace" asText, ← required r "metric_name" asText,
    ← required r "dimensions" (asList Dimension.ofJson?), ← required r "start" asTime,
    ← required r "end" asTime, ← required r "period" asPeriod,
    ← required r "statistic" Statistic.ofJson?⟩

end MetricQuery

namespace Datapoint

def toJson (p : Datapoint) : Json :=
  .object [("timestamp", p.timestamp.toJson), ("maximum", ofOption .real p.maximum)]

def ofJson? : Decoder Datapoint := fun j => do
  let r ← asRecord ["timestamp", "maximum"] 0 j
  pure ⟨← required r "timestamp" asTime, ← optional r "maximum" asReal⟩

end Datapoint

namespace InstanceRow

def toJsonIn (order : TableOrder) (row : InstanceRow) : Json :=
  .object [("identifier", .string row.identifier), ("instance_class", .string row.instanceClass),
    ("engine", .string row.engine), ("tags", ofTableIn order .string row.tags)]

def toJson : InstanceRow → Json := toJsonIn .byName

def ofJson? : Decoder InstanceRow := fun j => do
  let r ← asRecord ["identifier", "instance_class", "engine", "tags"] 1 j
  pure ⟨← required r "identifier" asText, ← required r "instance_class" asText,
    ← required r "engine" asText, ← defaulted r "tags" (asTable asText) ∅⟩

end InstanceRow

namespace ClusterRow

def toJsonIn (order : TableOrder) (row : ClusterRow) : Json :=
  .object [("identifier", .string row.identifier),
    ("instance_class", ofOption .string row.instanceClass), ("engine", .string row.engine),
    ("tags", ofTableIn order .string row.tags)]

def toJson : ClusterRow → Json := toJsonIn .byName

def ofJson? : Decoder ClusterRow := fun j => do
  let r ← asRecord ["identifier", "instance_class", "engine", "tags"] 1 j
  pure ⟨← required r "identifier" asText, ← optional r "instance_class" asText,
    ← required r "engine" asText, ← defaulted r "tags" (asTable asText) ∅⟩

end ClusterRow

namespace CacheRow

def toJson (row : CacheRow) : Json :=
  .object [("identifier", .string row.identifier), ("node_type", .string row.nodeType),
    ("engine", .string row.engine)]

def ofJson? : Decoder CacheRow := fun j => do
  let r ← asRecord ["identifier", "node_type", "engine"] 0 j
  pure ⟨← required r "identifier" asText, ← required r "node_type" asText,
    ← required r "engine" asText⟩

end CacheRow

namespace StreamingRow

def toJson (row : StreamingRow) : Json :=
  .object [("name", .string row.name), ("instance_type", .string row.instanceType),
    ("broker_count", ofNat row.brokerCount)]

def ofJson? : Decoder StreamingRow := fun j => do
  let r ← asRecord ["name", "instance_type", "broker_count"] 0 j
  pure ⟨← required r "name" asText, ← required r "instance_type" asText,
    ← required r "broker_count" (asNatural UInt32.size)⟩

end StreamingRow

/-- A member that is left out when there is no value. -/
def Json.present {α : Type} (name : String) (f : α → Json) : Option α → List (String × Json)
  | some a => [(name, f a)]
  | none => []

namespace ComponentHealth

def toJson (c : ComponentHealth) : Json :=
  .object ([("status", c.status.toJson)] ++ present "message" .string c.message ++
    [("last_check_timestamp", .integer c.checkedAt)])

def ofJson? : Decoder ComponentHealth := fun j => do
  let r ← asRecord ["status", "message", "last_check_timestamp"] 0 j
  pure ⟨← required r "status" Status.ofJson?, ← optional r "message" asText,
    ← required r "last_check_timestamp" (asInteger minSigned maxSigned)⟩

end ComponentHealth

namespace HealthReport

def toJsonIn (order : TableOrder) (h : HealthReport) : Json :=
  .object [("status", h.status.toJson),
    ("components", ofTableIn order ComponentHealth.toJson h.components)]

def toJson : HealthReport → Json := toJsonIn .byName

def ofJson? : Decoder HealthReport := fun j => do
  let r ← asRecord ["status", "components"] 0 j
  pure ⟨← required r "status" Status.ofJson?,
    ← required r "components" (asTable ComponentHealth.ofJson?)⟩

end HealthReport

namespace Readiness

def toJson (r : Readiness) : Json :=
  .object ([("ready", .bool r.ready)] ++ present "reason" .string r.reason)

def ofJson? : Decoder Readiness := fun j => do
  let r ← asRecord ["ready", "reason"] 0 j
  pure ⟨← required r "ready" asBool, ← optional r "reason" asText⟩

end Readiness

def Sample.toJson (s : Sample) : Json :=
  .object [("identifier", .string s.identifier), ("kind", s.figure.toJson),
    ("value", .real s.value), ("instance", s.resource.toJson)]

def Summary.toJson (s : Summary) : Json :=
  .object [("environment", .string s.environment),
    ("completed_at", ofOption Timestamp.toJson s.completedAt),
    ("instances", ofNat s.instances), ("errors", ofNat s.errors),
    ("fetch_disabled", .bool s.fetchDisabled), ("samples", .array (s.samples.map Sample.toJson))]

end PeakUsage
