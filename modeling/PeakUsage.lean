import PeakUsage.Collector
import PeakUsage.Engine
import PeakUsage.Event
import PeakUsage.Expiring
import PeakUsage.Exporter
import PeakUsage.Exporter.Service
import PeakUsage.Failure
import PeakUsage.Figure
import PeakUsage.Gauges
import PeakUsage.Gauges.Exposition
import PeakUsage.Health
import PeakUsage.Http
import PeakUsage.Inventory
import PeakUsage.Json.Basic
import PeakUsage.Json.Decode
import PeakUsage.Json.Model
import PeakUsage.Json.Reader
import PeakUsage.Json.Writer
import PeakUsage.Number.Order
import PeakUsage.Number.Shortest
import PeakUsage.Peaks
import PeakUsage.Program
import PeakUsage.Proofs.Asking
import PeakUsage.Proofs.BrokerKeys
import PeakUsage.Proofs.Chains
import PeakUsage.Proofs.Collector.Balance
import PeakUsage.Proofs.Collector.Horizon
import PeakUsage.Proofs.Collector.Journal
import PeakUsage.Proofs.Collector.Latched
import PeakUsage.Proofs.Collector.Maxima
import PeakUsage.Proofs.Collector.Measured
import PeakUsage.Proofs.Collector.Operations
import PeakUsage.Proofs.Collector.Outages
import PeakUsage.Proofs.Collector.Parts
import PeakUsage.Proofs.Collector.Refusals
import PeakUsage.Proofs.Collector.Repeated
import PeakUsage.Proofs.Collector.Reports
import PeakUsage.Proofs.Collector.Walk
import PeakUsage.Proofs.Exceptional
import PeakUsage.Proofs.Expiring
import PeakUsage.Proofs.Expiring.Histories
import PeakUsage.Proofs.Expiring.SingleTtl
import PeakUsage.Proofs.Exporter.Maxima
import PeakUsage.Proofs.Exporter.Outputs
import PeakUsage.Proofs.Exporter.Readiness
import PeakUsage.Proofs.Exporter.Windows
import PeakUsage.Proofs.Failure
import PeakUsage.Proofs.Gauges.Publication
import PeakUsage.Proofs.Gauges.Underway
import PeakUsage.Proofs.Halting
import PeakUsage.Proofs.Health
import PeakUsage.Proofs.Health.Registry
import PeakUsage.Proofs.Heeding
import PeakUsage.Proofs.Inventory.Due
import PeakUsage.Proofs.Inventory.Families
import PeakUsage.Proofs.Inventory.Listing
import PeakUsage.Proofs.Inventory.Placements
import PeakUsage.Proofs.Inventory.Refresh
import PeakUsage.Proofs.Inventory.Relisted
import PeakUsage.Proofs.Inventory.Rows
import PeakUsage.Proofs.Inventory.Served
import PeakUsage.Proofs.Inventory.Siblings
import PeakUsage.Proofs.Inventory.Survival
import PeakUsage.Proofs.Json.Bounds
import PeakUsage.Proofs.Json.Forms
import PeakUsage.Proofs.Json.Mirrors
import PeakUsage.Proofs.Json.Numerals
import PeakUsage.Proofs.Json.Reading
import PeakUsage.Proofs.Json.Reals
import PeakUsage.Proofs.Json.Records
import PeakUsage.Proofs.Json.Strings
import PeakUsage.Proofs.Logs
import PeakUsage.Proofs.Number.Integers
import PeakUsage.Proofs.Number.Nonnegative
import PeakUsage.Proofs.Number.Packing
import PeakUsage.Proofs.Number.Reading
import PeakUsage.Proofs.Number.Rounding
import PeakUsage.Proofs.Number.Shortest
import PeakUsage.Proofs.Peaks.Brokers
import PeakUsage.Proofs.Peaks.FanOut
import PeakUsage.Proofs.Peaks.Freshness
import PeakUsage.Proofs.Peaks.Hits
import PeakUsage.Proofs.Peaks.Independence
import PeakUsage.Proofs.Peaks.Lookups
import PeakUsage.Proofs.Peaks.Maxima
import PeakUsage.Proofs.Peaks.Measured
import PeakUsage.Proofs.Peaks.Misses
import PeakUsage.Proofs.Rejection
import PeakUsage.Proofs.Runs
import PeakUsage.Proofs.Sequences
import PeakUsage.Proofs.SideBySide
import PeakUsage.Proofs.Tasks
import PeakUsage.Proofs.Text.Digits
import PeakUsage.Proofs.Time.Calendar
import PeakUsage.Proofs.Time.Rfc3339
import PeakUsage.Proofs.Time.Window
import PeakUsage.Provider
import PeakUsage.Resource
import PeakUsage.Settings
import PeakUsage.Text.Blank
import PeakUsage.Text.Digits
import PeakUsage.Text.Infix
import PeakUsage.Time.Clock
import PeakUsage.Time.Nanos
import PeakUsage.Time.Rfc3339
import PeakUsage.Time.Timestamp
