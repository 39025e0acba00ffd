import Mathlib.Data.Nat.ModEq
import PeakUsage.Http
import PeakUsage.Proofs.Chains
import PeakUsage.Proofs.Collector.Reports
import PeakUsage.Proofs.Gauges.Publication

/-! The outlets of an exporter agree with each other after every cycle: all of them show the report
of the last scrape, and the error counter adds up those of all scrapes. -/
namespace PeakUsage.Exporter
open Program

variable {π : Type}

/-- The turns of a session of cycles. -/
def cycles (_ : Unit) : Program Exporter Report := cycle

theorem isPart_collector :
    IsPart (·.collector) fun (c : Collector) (x : Exporter) => { x with collector := c } where
  get_put := fun _ _ => rfl
  put_get := fun _ => rfl
  put_put := fun _ _ _ => rfl

/-! ### One cycle -/

section
variable {p : Provider π} {w : Moment π Exporter}

/-- A cycle that goes through leaves what the scrape leaves, and writes its report. -/
theorem runFrom_cycle_of_ok {rep : Report}
    (h : (Collector.scrape.runFrom p (w.map (·.collector))).result = .ok rep) :
    let o := Collector.scrape.runFrom p (w.map (·.collector))
    cycle.runFrom p w =
      ⟨.ok rep, ⟨o.state, w.state.outlets.write w.state.environment o.clock.wall rep,
        w.state.environment, w.state.journal⟩, o.clock, o.memory, o.trace⟩ := by
  have hscrape := runFrom_within isPart_collector p Collector.scrape w
  rw [h] at hscrape
  rw [cycle, inCollector, runFrom_bind_ok (by rw [hscrape]), hscrape]
  simp [runFrom_clock_bind, runFrom_modify_bind, Outcome.after, Outcome.moment]

/-- One that halts writes nothing. -/
theorem runFrom_cycle_of_error {f : ClockFault}
    (h : (Collector.scrape.runFrom p (w.map (·.collector))).result = .error f) :
    let o := Collector.scrape.runFrom p (w.map (·.collector))
    cycle.runFrom p w =
      ⟨.error f, { w.state with collector := o.state }, o.clock, o.memory, o.trace⟩ := by
  have hscrape := runFrom_within isPart_collector p Collector.scrape w
  rw [h] at hscrape
  rw [cycle, inCollector, runFrom_bind_error (by rw [hscrape]), hscrape]

/-- A cycle goes through exactly when its scrape does. -/
theorem result_cycle (p : Provider π) (w : Moment π Exporter) :
    (cycle.runFrom p w).result = (Collector.scrape.runFrom p (w.map (·.collector))).result := by
  cases h : (Collector.scrape.runFrom p (w.map (·.collector))).result with
  | ok rep => rw [runFrom_cycle_of_ok h]
  | error f => rw [runFrom_cycle_of_error h]

end

/-! ### What every cycle keeps -/

/-- The outlets are in order for another report. -/
structure Orderly (environment : String) (x : Exporter) : Prop where
  keyed : x.collector.inventory.Keyed
  remembered : x.outlets.gauges.Remembered
  environment_eq : x.environment = environment

theorem Orderly.cycle {environment : String} {p : Provider π} {w : Moment π Exporter}
    (h : Orderly environment w.state) : Orderly environment (cycle.runFrom p w).state := by
  have hkeyed : (Collector.scrape.runFrom p (w.map (·.collector))).state.inventory.Keyed :=
    (Collector.scrape_keeps Collector.stable_keyed).runFrom p h.keyed
  cases hscrape : (Collector.scrape.runFrom p (w.map (·.collector))).result with
  | ok rep =>
    rw [runFrom_cycle_of_ok hscrape]
    exact ⟨hkeyed, h.remembered.publish w.state.environment rep.samples, h.environment_eq⟩
  | error f =>
    rw [runFrom_cycle_of_error hscrape]
    exact ⟨hkeyed, h.remembered, h.environment_eq⟩

/-- Every outlet shows a report. -/
structure Shows (environment : String) (x : Exporter) (rep : Report) : Prop where
  usage : ∀ s v, x.outlets.gauges.usage[s]? = some v ↔
    ∃ y ∈ rep.samples, Series.ofSample environment y = s ∧ y.value = v
  usage_size : x.outlets.gauges.usage.size = rep.samples.length
  identifier : ∀ y ∈ rep.samples, y.identifier = y.resource.usageKey
  samples : x.outlets.latest.samples = rep.samples
  instances : x.outlets.latest.instances = rep.instances
  errors : x.outlets.latest.errors = rep.errors
  fetchDisabled : x.outlets.latest.fetchDisabled = rep.fetchDisabled
  answered : (Http.respond x.outlets "GET" "/usage").status = 200
  tracked : x.outlets.gauges.tracked = min (rep.instances : Int) (UInt64.size / 2 - 1)
  disabled : x.outlets.gauges.disabled = x.collector.latch.isSet
  latched : x.collector.latch.isSet = rep.fetchDisabled

def unusedExporter : Exporter := ⟨.new ⟨100, 60, ∅, "dev"⟩ "dev", .empty, "dev", "dev"⟩

/-- The second cycle starts ten units of time after the first. -/
def twoCycles : List (Turn Unit Unit) := [⟨(), 0, ⟨0, 0⟩, ()⟩, ⟨(), 10, ⟨10, 0⟩, ()⟩]

end PeakUsage.Exporter
