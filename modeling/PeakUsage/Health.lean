import Std.Data.ExtTreeMap

/-! The health of the exporter's components. -/
namespace PeakUsage

inductive Status where
  | healthy
  /-- Some lookups failed; the others are still served. -/
  | degraded
  | unhealthy
deriving DecidableEq

namespace Status

def name : Status → String
  | .healthy => "healthy"
  | .degraded => "degraded"
  | .unhealthy => "unhealthy"

def isOperational (s : Status) : Bool := s ≠ .unhealthy

def worse : Status → Status → Status
  | .unhealthy, _ => .unhealthy
  | _, .unhealthy => .unhealthy
  | .degraded, _ => .degraded
  | _, .degraded => .degraded
  | .healthy, .healthy => .healthy

/-- The worst of a list of states; healthy when there are none. -/
def worst (ss : List Status) : Status := ss.foldl worse .healthy

end Status

/-- What a component reported last. -/
structure ComponentHealth where
  status : Status
  message : Option String
  /-- In whole seconds since 1970. -/
  checkedAt : Int
deriving DecidableEq

structure HealthReport where
  status : Status
  components : Std.ExtTreeMap String ComponentHealth

structure Readiness where
  ready : Bool
  reason : Option String
deriving DecidableEq

/-- The components of the exporter and whether a scrape has completed. -/
structure Health where
  components : Std.ExtTreeMap String ComponentHealth
  ready : Bool

namespace Health

def empty : Health := ⟨∅, false⟩

def update (h : Health) (name : String) (c : ComponentHealth) : Health :=
  { h with components := h.components.insert name c }

def setHealthy (h : Health) (time : Int) (name : String) : Health :=
  h.update name ⟨.healthy, none, time⟩

def setDegraded (h : Health) (time : Int) (name message : String) : Health :=
  h.update name ⟨.degraded, some message, time⟩

def setUnhealthy (h : Health) (time : Int) (name message : String) : Health :=
  h.update name ⟨.unhealthy, some message, time⟩

def setReady (h : Health) (ready : Bool) : Health := { h with ready := ready }

section
variable (order : List (String × ComponentHealth))

/-- The status of components that are gone through in this order. -/
def statusIn : Status := Status.worst (order.map (·.2.status))

/-- The names of the unhealthy ones among them. -/
def failingIn : List String := (order.filter fun (_, c) => !c.status.isOperational).map (·.1)

/-- Why a registry with these components is not ready. -/
def reasonIn (ready : Bool) : Option String :=
  if !ready then some "No scrape completed yet"
  else if !(statusIn order).isOperational then
    some ("Unhealthy components: " ++ ", ".intercalate (failingIn order))
  else none

def readinessIn (ready : Bool) : Readiness :=
  ⟨(reasonIn order ready).isNone, reasonIn order ready⟩

end

def overall (h : Health) : Status := statusIn h.components.toList

def report (h : Health) : HealthReport := ⟨h.overall, h.components⟩

def readiness (h : Health) : Readiness := readinessIn h.components.toList h.ready

/-- The component that lists the resources. -/
def inventory : String := "inventory"

/-- The component that looks up figures. -/
def metricSource : String := "metric_source"

/-- The component that is unhealthy once provider calls are stopped. -/
def fetchLatch : String := "fetch_latch"

end Health
end PeakUsage
