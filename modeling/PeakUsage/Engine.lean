/-! Database, cache and streaming engines, and the metrics each of them reports. -/
namespace PeakUsage

inductive Engine where
  | postgres
  | auroraPostgresql
  | docdb
  | redis
  | valkey
  | kafka
  /-- An engine known by its name only. -/
  | other (name : String)
deriving DecidableEq

/-- How the raw CPU metrics of an engine make one figure. -/
inductive Combination where
  | single
  /-- Per broker the sum of the metrics, per cluster the greatest broker. -/
  | brokerSum
deriving DecidableEq

structure Engine.Profile where
  metricNamespace : String
  cpuMetrics : List String
  combination : Combination
  memoryMetric : Option String
deriving DecidableEq

namespace Engine

def name : Engine → String
  | .postgres => "postgres"
  | .auroraPostgresql => "aurora-postgresql"
  | .docdb => "docdb"
  | .redis => "redis"
  | .valkey => "valkey"
  | .kafka => "kafka"
  | .other name => name

def ofName (s : String) : Engine :=
  if s = "postgres" then .postgres
  else if s = "aurora-postgresql" then .auroraPostgresql
  else if s = "docdb" then .docdb
  else if s = "redis" then .redis
  else if s = "valkey" then .valkey
  else if s = "kafka" then .kafka
  else .other s

def isKnown : Engine → Bool
  | .other _ => false
  | _ => true

/-- An unknown engine is asked for its CPU figure in the empty namespace. -/
def profile : Engine → Profile
  | .postgres | .auroraPostgresql => ⟨"AWS/RDS", ["CPUUtilization"], .single, none⟩
  | .docdb => ⟨"AWS/DocDB", ["CPUUtilization"], .single, none⟩
  | .redis | .valkey =>
    ⟨"AWS/ElastiCache", ["CPUUtilization"], .single, some "DatabaseMemoryUsagePercentage"⟩
  | .kafka => ⟨"AWS/Kafka", ["CpuSystem", "CpuUser"], .brokerSum, none⟩
  | .other _ => ⟨"", ["CPUUtilization"], .single, none⟩

def reportsMemory (e : Engine) : Bool := e.profile.memoryMetric.isSome

theorem name_ofName (s : String) : (ofName s).name = s := by
  unfold ofName
  repeat' split
  all_goals simp_all [name]

end Engine
end PeakUsage
