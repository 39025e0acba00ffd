import PeakUsage.Failure
import PeakUsage.Json.Basic
import PeakUsage.Resource

/-! What is written to the log. -/
namespace PeakUsage

inductive Severity where
  | info
  | warn
  | error
deriving DecidableEq

def Severity.name : Severity → String
  | .info => "INFO"
  | .warn => "WARN"
  | .error => "ERROR"

inductive Event where
  | inventoryRefreshed (instances : Nat)
  | inventoryFailed (cause : Failure)
  | figureFailed (resource : Resource) (figure : Figure) (cause : Failure)
  /-- A streaming cluster is reported from the brokers that answered. -/
  | partialBrokers (resource : Resource) (value : Float) (cause : Failure)
  /-- Provider calls are stopped from here on. -/
  | fetchLatched (cause : Failure)
  /-- A call was refused because provider calls are stopped. -/
  | fetchSkipped
  | scrapeComplete (instances samples errors elapsedMillis : Nat)
  | started (version : String)
  | shutdown (reason : String)

namespace Event

def name : Event → String
  | .inventoryRefreshed _ => "inventory_refreshed"
  | .inventoryFailed _ => "inventory_refresh_failed"
  | .figureFailed .. => "usage_fetch_failed"
  | .partialBrokers .. => "usage_partial_brokers"
  | .fetchLatched _ => "fetch_disabled"
  | .fetchSkipped => "fetch_skipped"
  | .scrapeComplete .. => "scrape_complete"
  | .started _ => "exporter_started"
  | .shutdown _ => "exporter_shutdown"

def severity : Event → Severity
  | .inventoryRefreshed _ | .scrapeComplete .. | .started _ | .shutdown _ => .info
  | .partialBrokers .. => .warn
  | .inventoryFailed _ | .figureFailed .. | .fetchLatched _ | .fetchSkipped => .error

def text : Event → String
  | .inventoryRefreshed _ => "Instance inventory refreshed"
  | .inventoryFailed _ => "Failed to refresh instance inventory"
  | .figureFailed .. => "Failed to get resource usage"
  | .partialBrokers .. => "Reporting cluster usage from the reachable brokers only"
  | .fetchLatched _ => "Authorization failure, provider calls stopped until restart"
  | .fetchSkipped => "configuration error, invalid provider credentials"
  | .scrapeComplete .. => "Usage scrape complete"
  | .started _ => "Usage exporter started"
  | .shutdown _ => "Usage exporter shutting down"

/-- The fields of the log line beyond the event's name and the environment. -/
def fields : Event → List (String × Json)
  | .inventoryRefreshed instances => [("instances", .integer instances)]
  | .inventoryFailed cause => [("error", .string cause.text)]
  | .figureFailed r figure cause =>
    [("metric", .string figure.name), ("identifier", .string r.identifier),
      ("engine", .string r.engine.name), ("level", .string r.level.name),
      ("identifier_field_name", .string r.dimension),
      ("instance_class", .string r.instanceClass), ("error", .string cause.text)]
  | .partialBrokers r value cause =>
    [("identifier", .string r.identifier), ("broker_count", .integer r.brokerCount),
      ("value", .real value), ("error", .string cause.text)]
  | .fetchLatched cause => [("error", .string cause.text)]
  | .fetchSkipped => []
  | .scrapeComplete instances samples errors elapsedMillis =>
    [("instances", .integer instances), ("samples", .integer samples),
      ("errors", .integer errors), ("elapsed_ms", .integer elapsedMillis)]
  | .started version => [("version", .string version)]
  | .shutdown reason => [("reason", .string reason)]

end Event

structure LogEntry where
  environment : String
  event : Event

def LogEntry.toJson (e : LogEntry) : Json :=
  .object ([("event", .string e.event.name), ("environment", .string e.environment)] ++
    e.event.fields ++
    [("message", .string e.event.text), ("level_name", .string e.event.severity.name)])

end PeakUsage
