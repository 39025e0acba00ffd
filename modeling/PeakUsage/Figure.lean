import Std.Data.ExtTreeMap
import PeakUsage.Time.Timestamp

/-! Usage figures: their kinds, the keys they are kept under, and the queries they come from. -/
namespace PeakUsage

inductive Figure where
  | cpu
  | memory
deriving DecidableEq

def Figure.name : Figure → String
  | .cpu => "cpu"
  | .memory => "memory"

/-- The key of a kept figure; CPU and memory figures of one text never collide. -/
structure FigureKey where
  figure : Figure
  key : String
deriving DecidableEq

namespace FigureKey

def text (k : FigureKey) : String := k.figure.name ++ ":" ++ k.key

/-- The parts a key is ordered by. -/
def parts (k : FigureKey) : List String := [k.figure.name, k.key]

theorem parts_injective {a b : FigureKey} (h : a.parts = b.parts) : a = b := by
  obtain ⟨f, k⟩ := a
  obtain ⟨g, l⟩ := b
  simp only [parts, List.cons.injEq, and_true] at h
  obtain ⟨hf, rfl⟩ := h
  cases f <;> cases g <;> simp_all [Figure.name]

instance : Ord FigureKey := ⟨compareOn parts⟩

instance : Std.TransOrd FigureKey := inferInstanceAs (Std.TransCmp (compareOn parts))

instance : Std.LawfulEqOrd FigureKey where
  eq_of_compare h := parts_injective (Std.LawfulEqOrd.eq_of_compare (α := List String) h)

end FigureKey

structure Dimension where
  name : String
  value : String
deriving DecidableEq

inductive Statistic where
  | maximum
deriving DecidableEq

def Statistic.name : Statistic → String
  | .maximum => "Maximum"

/-- A query for the datapoints of one metric series in a window of time. -/
structure MetricQuery where
  metricNamespace : String
  metric : String
  dimensions : List Dimension
  start : Timestamp
  stop : Timestamp
  period : Nat
  statistic : Statistic
deriving DecidableEq

/-- The value of the first dimension with the given name. -/
def MetricQuery.dimension? (q : MetricQuery) (name : String) : Option String :=
  (q.dimensions.find? (·.name = name)).map (·.value)

structure Datapoint where
  timestamp : Timestamp
  maximum : Option Float

/-- The granularity figures are asked for in. -/
def statisticsPeriod : Nat := Nanos.ofSeconds 3600

/-- The dimension that selects a broker. -/
def brokerDimension : String := "Broker ID"

end PeakUsage
