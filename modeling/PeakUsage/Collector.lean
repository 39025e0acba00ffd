import PeakUsage.Inventory
import PeakUsage.Peaks

/-! The collector: inventory and figures behind a latch that stops all calls once the provider has
rejected the credentials. -/
namespace PeakUsage

/-- Set by the first rejection of the credentials, and never cleared. -/
structure Latch where
  isSet : Bool
deriving DecidableEq

namespace Latch

/-- Whether a failure is the one that sets the latch. -/
def trips (l : Latch) (e : Failure) : Bool := e.isAuth && !l.isSet

def after (l : Latch) (e : Failure) : Latch := ⟨l.isSet || e.isAuth⟩

end Latch

structure CollectorSettings where
  /-- How long rows and figures are kept. -/
  scrapeInterval : Nat
  lookback : Nat
  expectedTags : Tags
  environmentName : String

structure Collector where
  inventory : Inventory
  peaks : Peaks
  latch : Latch
  /-- The environment its log lines are for. -/
  environment : String

/-- A figure of a resource, published under the resource's key. -/
structure Sample where
  identifier : String
  figure : Figure
  value : Float
  resource : Resource

structure Report where
  instances : Nat
  samples : List Sample
  /-- Lookups that failed, those of clusters with some brokers missing included. -/
  errors : Nat
  /-- Why the resources could not be listed. -/
  listingFailure : Option Failure
  fetchDisabled : Bool
  elapsed : Nat

namespace Collector
open Program

def new (settings : CollectorSettings) (environment : String) : Collector where
  inventory := .new ⟨settings.expectedTags, settings.environmentName⟩ settings.scrapeInterval
  peaks := .new settings.scrapeInterval settings.lookback
  latch := ⟨false⟩
  environment := environment

def inInventory {α : Type} (p : Program Inventory α) : Program Collector α :=
  p.within (·.inventory) fun i s => { s with inventory := i }

def inPeaks {α : Type} (p : Program Peaks α) : Program Collector α :=
  p.within (·.peaks) fun f s => { s with peaks := f }

def note (e : Event) : Program Collector Unit := do
  let s ← state
  emit ⟨s.environment, e⟩

/-- Sets the latch if the failure says so, which is logged once. -/
def observe (e : Failure) : Program Collector Unit := do
  let s ← state
  if s.latch.trips e then
    modify fun s => { s with latch := s.latch.after e }
    note (.fetchLatched e)

/-- Refuses an operation once the latch is set, and watches what it fails with before. -/
def guarded {α : Type} (p : Program Collector (Except Failure α)) :
    Program Collector (Except Failure α) := do
  let s ← state
  if s.latch.isSet then
    note .fetchSkipped
    pure (.error .disabled)
  else
    match ← p with
    | .ok a => pure (.ok a)
    | .error e =>
      observe e
      pure (.error e)

def resources : Program Collector (Except Failure (List Resource)) :=
  guarded do
    let c ← clock
    let s ← state
    let stale := s.inventory.needsRefresh c.now
    match ← inInventory Inventory.resources with
    | .error e => pure (.error e)
    | .ok rs =>
      if stale then note (.inventoryRefreshed rs.length)
      pure (.ok rs)

/-- The peak CPU usage of a resource, kept under `key`. -/
def cpu (key : String) (r : Resource) : Program Collector (Except Failure Float) :=
  guarded (inPeaks (Peaks.cpu key r))

/-- The peak memory usage of a resource, kept under `key`. -/
def memory (key : String) (r : Resource) : Program Collector (Except Failure Float) :=
  guarded (inPeaks (Peaks.memory key r))

/-! ### Scraping -/

/-- Adds the outcome of a lookup to a report; a failure counts, and may still carry a value. -/
def record (rep : Report) (r : Resource) (figure : Figure) :
    Except Failure Float → Program Collector (Report × Bool)
  | .ok v =>
    done ({ rep with samples := rep.samples ++ [⟨r.usageKey, figure, v, r⟩] }, true)
  | .error e => do
    let rep := { rep with errors := rep.errors + 1 }
    match e.partialPeak with
    | some v =>
      note (.partialBrokers r v e)
      pure ({ rep with samples := rep.samples ++ [⟨r.usageKey, figure, v, r⟩] }, true)
    | none =>
      if !e.isDisabled then note (.figureFailed r figure e)
      pure (rep, false)

/-- Looks up the figures of one resource. A failed CPU lookup also skips the memory figure. -/
def visit (rep : Report) (r : Resource) : Program Collector Report := do
  let outcome ← cpu r.usageKey r
  let (rep, found) ← record rep r .cpu outcome
  if found && r.engine.reportsMemory then
    let outcome ← memory r.usageKey r
    let (rep, _) ← record rep r .memory outcome
    pure rep
  else pure rep

/-- Visits the resources in order, up to where the latch is set. -/
def visitAll (rep : Report) : List Resource → Program Collector Report
  | [] => done rep
  | r :: rest => do
    let s ← state
    if s.latch.isSet then pure rep
    else
      let rep ← visit rep r
      visitAll rep rest

def scrape : Program Collector Report := do
  let start ← clock
  let rep : Report := ⟨0, [], 0, none, false, 0⟩
  match ← resources with
  | .error e =>
    let rep := if e.isDisabled then rep else { rep with errors := 1, listingFailure := some e }
    if !e.isDisabled then note (.inventoryFailed e)
    let s ← state
    let c ← clock
    pure { rep with fetchDisabled := s.latch.isSet, elapsed := c.now - start.now }
  | .ok rs =>
    let rep ← visitAll { rep with instances := rs.length } rs
    let s ← state
    let c ← clock
    let rep := { rep with fetchDisabled := s.latch.isSet, elapsed := c.now - start.now }
    note (.scrapeComplete rep.instances rep.samples.length rep.errors (Nanos.millis rep.elapsed))
    pure rep

end Collector
end PeakUsage
