import PeakUsage.Gauges
import PeakUsage.Number.Shortest

/-! The text exposition of the gauges. -/
namespace PeakUsage

structure MetricFamily where
  name : String
  help : String
  kind : String
  samples : List String
deriving DecidableEq

/-- The heading lines of a metric, then its series. -/
def MetricFamily.lines (f : MetricFamily) : List String :=
  ("# HELP " ++ f.name ++ " " ++ f.help) :: ("# TYPE " ++ f.name ++ " " ++ f.kind) :: f.samples

namespace Gauges

/-- A label's value in quotes: backslashes, quotes and line ends are escaped. -/
def quotedLabel (s : String) : String :=
  String.ofList ('"' :: (s.toList.flatMap fun c =>
    if c = '\\' then ['\\', '\\']
    else if c = '"' then ['\\', '"']
    else if c = '\n' then ['\\', 'n']
    else [c]) ++ ['"'])

def line (name : String) (labels : List (String × String)) (value : String) : String :=
  let pairs := labels.map fun (n, v) => n ++ "=" ++ quotedLabel v
  name ++ "\x7b" ++ ",".intercalate pairs ++ "\x7d " ++ value

def usageName : Figure → String
  | .cpu => "aws_resource_usage_cpu_max"
  | .memory => "aws_resource_usage_memory_max"

def usageHelp : Figure → String
  | .cpu => "Resource peak CPU Usage"
  | .memory => "Resource peak memory Usage"

def latencyName : String := "usage_store_scrape_latency_seconds"

def errorsName : String := "usage_store_fetch_errors_total"

/-- The labels of a series, in the order of their names. -/
def labels (s : Series) : List (String × String) :=
  [("collected_time", s.collectedTime), ("engine", s.engine), ("environment", s.environment),
    ("identifier", s.identifier), ("instance_class", s.instanceClass), ("level", s.level)]

/-- The series of one usage gauge, in the order of their labels. -/
def usageLines (g : Gauges) (f : Figure) : List String :=
  (g.usage.toList.filter fun (s, _) => s.figure = f).map fun (s, v) =>
    line (usageName f) (labels s) (Number.text v)

/-- A usage gauge; one without any series is not there at all. -/
def usageFamily (g : Gauges) (f : Figure) : List MetricFamily :=
  match g.usageLines f with
  | [] => []
  | lines => [⟨usageName f, usageHelp f, "gauge", lines⟩]

def latencyLines (g : Gauges) : List String :=
  (Histogram.bounds.zip g.latencies.cumulative).map (fun (b, n) =>
      line (latencyName ++ "_bucket") [("le", Number.text b)] (Text.decimal n)) ++
    [line (latencyName ++ "_bucket") [("le", "+Inf")] (Text.decimal g.latencies.total),
      latencyName ++ "_count " ++ Text.decimal g.latencies.total]

/-- Every metric, in the order of their names. -/
def families (g : Gauges) : List MetricFamily :=
  g.usageFamily .cpu ++ g.usageFamily .memory ++
    [⟨"usage_store_fetch_disabled",
        "1 once provider calls are stopped after an authorization failure", "gauge",
        ["usage_store_fetch_disabled " ++ if g.disabled then "1" else "0"]⟩,
      ⟨errorsName, "Total number of failed inventory or metric lookups", "counter",
        [errorsName ++ " " ++ Number.text (Float.ofNat g.errors)]⟩,
      ⟨"usage_store_instances_tracked",
        "Number of instances returned by the last inventory listing", "gauge",
        ["usage_store_instances_tracked " ++ Number.text (Float.ofInt g.tracked)]⟩,
      ⟨latencyName, "Time spent producing one round of usage samples", "histogram",
        g.latencyLines⟩]

end Gauges
end PeakUsage
