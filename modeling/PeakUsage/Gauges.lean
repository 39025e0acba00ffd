import Std.Data.ExtTreeMap
import PeakUsage.Collector
import PeakUsage.Time.Rfc3339

/-! The published series and the counters beside them. -/
namespace PeakUsage

/-- One published series: the gauge it belongs to and the values of its labels. -/
structure Series where
  figure : Figure
  collectedTime : String
  engine : String
  environment : String
  identifier : String
  instanceClass : String
  level : String
deriving DecidableEq

namespace Series

/-- The parts a series is ordered by: its gauge, then its labels in the order of their names. -/
def parts (s : Series) : List String :=
  [s.figure.name, s.collectedTime, s.engine, s.environment, s.identifier, s.instanceClass, s.level]

theorem parts_injective {a b : Series} (h : a.parts = b.parts) : a = b := by
  obtain ⟨f, _⟩ := a
  obtain ⟨g, _⟩ := b
  simp only [parts, List.cons.injEq, and_true] at h
  obtain ⟨hf, rfl, rfl, rfl, rfl, rfl, rfl⟩ := h
  cases f <;> cases g <;> simp_all [Figure.name]

instance : Ord Series := ⟨compareOn parts⟩

instance : Std.TransOrd Series := inferInstanceAs (Std.TransCmp (compareOn parts))

instance : Std.LawfulEqOrd Series where
  eq_of_compare h := parts_injective (Std.LawfulEqOrd.eq_of_compare (α := List String) h)

def ofSample (environment : String) (s : Sample) : Series where
  figure := s.figure
  collectedTime := s.resource.collectedAt.label
  engine := s.resource.engine.name
  environment := environment
  identifier := s.identifier
  instanceClass := s.resource.instanceClass
  level := s.resource.level.name

end Series

/-- Counts of observed durations. -/
structure Histogram where
  /-- How many observations fell into each bucket and into none before it. -/
  counts : List Nat
  total : Nat
deriving DecidableEq

namespace Histogram

/-- The upper bounds of the buckets, in seconds. -/
def bounds : List Float :=
  [0.001, 0.005, 0.01, 0.05, 0.1, 0.25, 0.5, 1.0, 2.5, 5.0, 10.0, 30.0, 60.0]

def empty : Histogram := ⟨bounds.map fun _ => 0, 0⟩

/-- Counts an observation in the first bucket whose bound is not below it. -/
def place (x : Float) : List Float → List Nat → List Nat
  | b :: bs, n :: ns => if Number.atMost x b then (n + 1) :: ns else n :: place x bs ns
  | _, ns => ns

def observe (h : Histogram) (x : Float) : Histogram := ⟨place x bounds h.counts, h.total + 1⟩

/-- Running sums, starting above `sum`. -/
def sums (sum : Nat) : List Nat → List Nat
  | [] => []
  | n :: ns => (sum + n) :: sums (sum + n) ns

/-- How many observations are at most each bound. -/
def cumulative (h : Histogram) : List Nat := sums 0 h.counts

end Histogram

structure Gauges where
  usage : Std.ExtTreeMap Series Float
  /-- The series set by the last publication. -/
  published : Std.ExtTreeMap Series Unit
  latencies : Histogram
  tracked : Int
  /-- Counted modulo 2⁶⁴. -/
  errors : Nat
  disabled : Bool

namespace Gauges

def empty : Gauges := ⟨∅, ∅, .empty, 0, 0, false⟩

inductive Step where
  | set (s : Series) (value : Float)
  | remove (s : Series)

def Step.apply (usage : Std.ExtTreeMap Series Float) : Step → Std.ExtTreeMap Series Float
  | .set s value => usage.insert s value
  | .remove s => usage.erase s

def seriesOf (environment : String) (samples : List Sample) : Std.ExtTreeMap Series Unit :=
  Std.ExtTreeMap.ofList (samples.map fun s => (Series.ofSample environment s, ()))

/-- The changes of a publication: the new values are set before the series that have gone are
removed, so that a reader in between never finds the gauges emptied. -/
def steps (published : Std.ExtTreeMap Series Unit) (environment : String)
    (samples : List Sample) : List Step :=
  let current := seriesOf environment samples
  (samples.map fun s => .set (.ofSample environment s) s.value) ++
    (published.keys.filter fun s => !current.contains s).map .remove

/-- Replaces the published series by those of the samples. -/
def publish (g : Gauges) (environment : String) (samples : List Sample) : Gauges :=
  { g with
    usage := (steps g.published environment samples).foldl Step.apply g.usage
    published := seriesOf environment samples }

def observeLatency (g : Gauges) (seconds : Float) : Gauges :=
  { g with latencies := g.latencies.observe seconds }

def setTracked (g : Gauges) (n : Int) : Gauges := { g with tracked := n }

def addErrors (g : Gauges) (n : Nat) : Gauges :=
  { g with errors := (g.errors + n) % UInt64.size }

def setDisabled (g : Gauges) (disabled : Bool) : Gauges := { g with disabled := disabled }

end Gauges
end PeakUsage
