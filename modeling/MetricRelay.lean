import MetricRelay.Calendar.Civil
import MetricRelay.Calendar.Timestamp
import MetricRelay.Clock
import MetricRelay.Collection.Join
import MetricRelay.Collection.Readings
import MetricRelay.CommandLine.Arguments
import MetricRelay.CommandLine.Help
import MetricRelay.CommandLine.Program
import MetricRelay.Complaint
import MetricRelay.Decimal.Exact
import MetricRelay.Decimal.Layout
import MetricRelay.Decimal.Notation
import MetricRelay.Decimal.Reading
import MetricRelay.Decimal.Shortest
import MetricRelay.Delivery.Breaker
import MetricRelay.Delivery.Dispatcher
import MetricRelay.Delivery.Exporter
import MetricRelay.Delivery.Network
import MetricRelay.Delivery.Relay
import MetricRelay.Delivery.Request
import MetricRelay.Delivery.WriteRequest
import MetricRelay.Fault
import MetricRelay.Files
import MetricRelay.Json.Printer
import MetricRelay.Json.Reader
import MetricRelay.Kind
import MetricRelay.Main
import MetricRelay.Proc.Counters
import MetricRelay.Proc.Devices
import MetricRelay.Proc.Host
import MetricRelay.Proc.Status
import MetricRelay.Proofs.Calendar.Days
import MetricRelay.Proofs.Calendar.Moments
import MetricRelay.Proofs.Collection.AllOrNothing
import MetricRelay.Proofs.Collection.FirstReadings
import MetricRelay.Proofs.Collection.Footprint
import MetricRelay.Proofs.Collection.Halves
import MetricRelay.Proofs.Collection.JoinCalls
import MetricRelay.Proofs.Collection.Probing
import MetricRelay.Proofs.Delivery.Authorization
import MetricRelay.Proofs.Delivery.BreakerHistory
import MetricRelay.Proofs.Delivery.CallRate
import MetricRelay.Proofs.Delivery.DispatcherTraffic
import MetricRelay.Proofs.Delivery.ExportPairing
import MetricRelay.Proofs.Delivery.FanOut
import MetricRelay.Proofs.Delivery.NodeTraffic
import MetricRelay.Proofs.Delivery.RemoteWrite
import MetricRelay.Proofs.Delivery.Traffic
import MetricRelay.Proofs.Delivery.WireRoundTrip
import MetricRelay.Proofs.Isolation.Isolated
import MetricRelay.Proofs.Isolation.Notes
import MetricRelay.Proofs.Isolation.Sound
import MetricRelay.Proofs.Isolation.Transport
import MetricRelay.Proofs.Isolation.TwoRuns
import MetricRelay.Proofs.Isolation.Unwinding
import MetricRelay.Proofs.Isolation.Veil
import MetricRelay.Proofs.Json.RoundTrip
import MetricRelay.Proofs.Json.Scalars
import MetricRelay.Proofs.Proc.CounterTables
import MetricRelay.Proofs.Proc.Mounts
import MetricRelay.Proofs.Proc.Sockets
import MetricRelay.Proofs.Reading.Growth
import MetricRelay.Proofs.Reading.Pairing
import MetricRelay.Proofs.Reading.Shares
import MetricRelay.Proofs.Restart.Afresh
import MetricRelay.Proofs.Restart.Present
import MetricRelay.Proofs.Restart.SideBySide
import MetricRelay.Proofs.Scheduling.Coherence
import MetricRelay.Proofs.Scheduling.Course
import MetricRelay.Proofs.Scheduling.Cutoff
import MetricRelay.Proofs.Scheduling.DispatchTimes
import MetricRelay.Proofs.Scheduling.Happening
import MetricRelay.Proofs.Scheduling.Listeners
import MetricRelay.Proofs.Scheduling.Regularity
import MetricRelay.Proofs.Scheduling.RunLimit
import MetricRelay.Proofs.Scheduling.Schedule
import MetricRelay.Proofs.Scheduling.SingleFlight
import MetricRelay.Proofs.Scheduling.Start
import MetricRelay.Proofs.Scheduling.Turn
import MetricRelay.Proofs.Scheduling.VirtualTime
import MetricRelay.Proofs.Settings.LeastProblem
import MetricRelay.Proofs.Settings.Restated
import MetricRelay.Proofs.Settings.Validated
import MetricRelay.Proofs.Settings.WebUrls
import MetricRelay.Proofs.Snappy.Expansion
import MetricRelay.Proofs.Snappy.RoundTrip
import MetricRelay.Proofs.Snapshot.RoundTrip
import MetricRelay.Proofs.Snapshot.Sections
import MetricRelay.Proofs.Text.Base64
import MetricRelay.Proofs.Text.Columns
import MetricRelay.Proofs.Text.Numerals
import MetricRelay.Proofs.Tree.Records
import MetricRelay.Proofs.Tree.Restated
import MetricRelay.Reading.Basic
import MetricRelay.Reading.Canned
import MetricRelay.Reading.Rate
import MetricRelay.Reading.Source
import MetricRelay.Scheduling.Drain
import MetricRelay.Scheduling.Job
import MetricRelay.Scheduling.Listener
import MetricRelay.Scheduling.Scheduler
import MetricRelay.Scheduling.Task
import MetricRelay.Scheduling.Timeline
import MetricRelay.Settings.Basic
import MetricRelay.Settings.Document
import MetricRelay.Settings.File
import MetricRelay.Settings.Validation
import MetricRelay.Snappy.Element
import MetricRelay.Snappy.Matching
import MetricRelay.Snapshot
import MetricRelay.Snapshot.Document
import MetricRelay.Snapshot.Json
import MetricRelay.Text.Base64
import MetricRelay.Text.Blank
import MetricRelay.Text.Bytes
import MetricRelay.Text.Numeral
import MetricRelay.Text.Printable
import MetricRelay.Text.Quoted
import MetricRelay.Toml.Draft
import MetricRelay.Toml.Reader
import MetricRelay.Toml.Scalar
import MetricRelay.Toml.Text
import MetricRelay.Tree
import MetricRelay.Wire
