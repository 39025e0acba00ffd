import PeakUsage.Gauges
import PeakUsage.Health

/-! The exporter: a collector and the outlets its scrapes are written to. -/
namespace PeakUsage

structure Summary where
  environment : String
  /-- Unset before the first scrape. -/
  completedAt : Option Timestamp
  instances : Nat
  errors : Nat
  fetchDisabled : Bool
  samples : List Sample

def Summary.empty : Summary := ⟨"", none, 0, 0, false, []⟩

def Summary.ofReport (environment : String) (time : Timestamp) (rep : Report) : Summary :=
  ⟨environment, some time, rep.instances, rep.errors, rep.fetchDisabled, rep.samples⟩

/-- What readers see of the exporter. -/
structure Outlets where
  gauges : Gauges
  health : Health
  latest : Summary

def Outlets.empty : Outlets := ⟨.empty, .empty, .empty⟩

structure Exporter where
  collector : Collector
  outlets : Outlets
  /-- The value of the environment label, and of the summary's environment. -/
  environment : String
  /-- The environment of the exporter's own log lines. -/
  journal : String

/-! ### Setting up -/

structure ExporterOptions where
  hasCollector : Bool
  sharesHealth : Bool
  sharesLatest : Bool
  /-- The environment of a logger of its own. -/
  logger : Option String
  tick : Nat
  environment : String

inductive BuildFault where
  | noCollector
  | zeroTick
deriving DecidableEq

def BuildFault.message : BuildFault → String
  | .noCollector => "Usage store is required"
  | .zeroTick => "Tick interval must be greater than zero"

/-- The options of an exporter that can run. -/
structure Schedule where
  /-- The time between two scrapes. -/
  tick : Nat
  tick_pos : 0 < tick

namespace ExporterOptions

/-- The time between two scrapes unless another is asked for. -/
def defaultTick : Nat := Nanos.ofSeconds 120

/-- The log lines of an exporter without a logger of its own are for its environment. -/
def journal (o : ExporterOptions) : String := o.logger.getD o.environment

def schedule? (o : ExporterOptions) : Except BuildFault Schedule :=
  if !o.hasCollector then .error .noCollector
  else if h : 0 < o.tick then .ok ⟨o.tick, h⟩
  else .error .zeroTick

end ExporterOptions

namespace Report

/-- Usage lookups that failed: all errors but a failed listing. -/
def lookupErrors (rep : Report) : Nat :=
  rep.errors - if rep.listingFailure.isSome then 1 else 0

end Report

namespace Outlets

def publishReport (g : Gauges) (environment : String) (rep : Report) : Gauges :=
  ((((g.publish environment rep.samples).observeLatency (Nanos.toFloat rep.elapsed)).setTracked
    (min rep.instances (UInt64.size / 2 - 1))).addErrors rep.errors).setDisabled rep.fetchDisabled

def judge (h : Health) (time : Int) (rep : Report) : Health :=
  let h :=
    if rep.fetchDisabled then
      h.setUnhealthy time Health.fetchLatch "provider rejected credentials, restart required"
    else h.setHealthy time Health.fetchLatch
  let h :=
    match rep.listingFailure with
    | some e => h.setDegraded time Health.inventory e.text
    | none => h.setHealthy time Health.inventory
  let h :=
    if 0 < rep.lookupErrors then
      h.setDegraded time Health.metricSource
        (Text.decimal rep.lookupErrors ++ " usage lookups failed")
    else h.setHealthy time Health.metricSource
  h.setReady true

def write (o : Outlets) (environment : String) (time : Timestamp) (rep : Report) : Outlets where
  gauges := publishReport o.gauges environment rep
  health := judge o.health time.second rep
  latest := .ofReport environment time rep

end Outlets

namespace Exporter
open Program

def inCollector {α : Type} (p : Program Collector α) : Program Exporter α :=
  p.within (·.collector) fun c s => { s with collector := c }

/-- Scrapes once and writes the report to every outlet. -/
def cycle : Program Exporter Report := do
  let rep ← inCollector Collector.scrape
  let c ← clock
  modify fun s => { s with outlets := s.outlets.write s.environment c.wall rep }
  pure rep

def note (e : Event) : Program Exporter Unit := do
  let s ← state
  emit ⟨s.journal, e⟩

end Exporter
end PeakUsage
