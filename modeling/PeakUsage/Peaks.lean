import PeakUsage.Expiring
import PeakUsage.Number.Order
import PeakUsage.Program

/-! Peak figures, asked for once and then kept for a while. -/
namespace PeakUsage

structure Peaks where
  /-- How long a figure is kept. -/
  ttl : Nat
  /-- The length of the window a figure is taken over; it ends when the resource was listed. -/
  lookback : Nat
  cache : Expiring FigureKey Float

namespace Peaks
open Program

def new (ttl lookback : Nat) : Peaks := ⟨ttl, lookback, .empty⟩

/-- The query for one metric of a resource, or of one broker of it. -/
def query (lookback : Nat) (r : Resource) (metric : String) (broker : Option String) :
    MetricQuery where
  metricNamespace := r.engine.profile.metricNamespace
  metric := metric
  dimensions := ⟨r.dimension, r.identifier⟩ :: (broker.map (⟨brokerDimension, ·⟩)).toList
  start := r.collectedAt.back lookback
  stop := r.collectedAt
  period := statisticsPeriod
  statistic := .maximum

/-- The queries whose peaks add up to the CPU figure of a resource, or of one broker of it. -/
def cpuPlan (r : Resource) (broker : Option String) (lookback : Nat) : List MetricQuery :=
  r.engine.profile.cpuMetrics.map fun metric => query lookback r metric broker

/-- The greatest maximum of a series; 0 without any, and points without a number do not count. -/
def peakOf (points : List Datapoint) : Float :=
  Number.greatest 0.0 (points.filterMap (·.maximum))

/-- Adds up the peaks of the queries, stopping at the first that fails. -/
def total (key : FigureKey) : List MetricQuery → Float → Program Peaks (Except Failure Float)
  | [], sum => done (.ok sum)
  | q :: rest, sum => do
    match ← request (.statistics q) with
    | .error e => pure (.error (.metric key.key q.metric e))
    | .ok points => total key rest (sum + peakOf points)

def keep (key : FigureKey) (value : Float) : Program Peaks Unit :=
  look fun c s =>
    match s.cache.set c.now key value s.ttl with
    | .ok cache => save { s with cache := cache } (done ())
    | .error e => halt e

/-- The figure kept under a key, or else the total of a plan, which is kept if all of it
succeeds. -/
def lookup (key : FigureKey) (plan : Nat → List MetricQuery) :
    Program Peaks (Except Failure Float) :=
  look fun c s =>
    match s.cache.get? c.now key with
    | some v => done (.ok v)
    | none => save { s with cache := s.cache.touch c.now key } do
      match ← total key (plan s.lookback) 0.0 with
      | .error e => pure (.error e)
      | .ok v =>
        keep key v
        pure (.ok v)

/-- The CPU figure of one broker, kept under `key`. -/
def brokerCpu (key : String) (r : Resource) (broker : String) :
    Program Peaks (Except Failure Float) :=
  lookup ⟨.cpu, key⟩ (cpuPlan r (some broker))

/-- The figure of a cluster from those of its brokers: the greatest, which is only partial when some
of them failed. -/
def combine (r : Resource) (outcomes : List (Except Failure Float)) : Except Failure Float :=
  let peak := Number.greatest 0.0 (outcomes.filterMap Except.toOption)
  let failures := outcomes.filterMap fun
    | .error e => some e
    | .ok _ => none
  if failures.isEmpty then .ok peak
  else .error (.brokers r.identifier r.brokerCount peak failures)

/-- The CPU figure of a cluster: one lookup per broker, each kept under the broker's own key. -/
def clusterCpu (r : Resource) : Program Peaks (Except Failure Float) := do
  let outcomes ← each
    (fun id => brokerCpu (brokerKey r.identifier id) r (Text.decimal id))
    (List.range' 1 r.brokerCount)
  pure (combine r outcomes)

/-- The peak CPU usage of a resource, kept under `key`. A broker without a number is the one its
key names. -/
def cpu (key : String) (r : Resource) : Program Peaks (Except Failure Float) :=
  match r.engine.profile.combination, r.level with
  | .brokerSum, .cluster => clusterCpu r
  | .brokerSum, _ =>
    brokerCpu key r (match r.brokerId with
      | some id => Text.decimal id
      | none => brokerOfKey key)
  | .single, _ => lookup ⟨.cpu, key⟩ (cpuPlan r none)

/-- The peak memory usage of a resource, kept under `key`; few engines report one. -/
def memory (key : String) (r : Resource) : Program Peaks (Except Failure Float) :=
  match r.engine.profile.memoryMetric with
  | none => done (.error (.unsupported .memory r.engine.name))
  | some metric => lookup ⟨.memory, key⟩ fun lookback => [query lookback r metric none]

end Peaks
end PeakUsage
