import ServiceWatch.Alert
import ServiceWatch.Binary64.Basic
import ServiceWatch.Binary64.Decimal
import ServiceWatch.Binary64.PowerOfTen
import ServiceWatch.Binary64.Shortest
import ServiceWatch.Command.Basic
import ServiceWatch.Command.ExitStatus
import ServiceWatch.Command.Start
import ServiceWatch.CommandLine.Arguments
import ServiceWatch.CommandLine.Grammar
import ServiceWatch.CommandLine.Run
import ServiceWatch.CommandLine.Usage
import ServiceWatch.Disk.Action
import ServiceWatch.Disk.Basic
import ServiceWatch.Duration
import ServiceWatch.Endpoint
import ServiceWatch.Findings
import ServiceWatch.Http.Exchange
import ServiceWatch.Http.Response
import ServiceWatch.Http.Url
import ServiceWatch.Json.Fault
import ServiceWatch.Json.Number
import ServiceWatch.Json.Record
import ServiceWatch.Json.Scan
import ServiceWatch.Json.Skip
import ServiceWatch.Json.Tagged
import ServiceWatch.Json.Tree
import ServiceWatch.Json.Typed
import ServiceWatch.Json.Value
import ServiceWatch.Main
import ServiceWatch.Memory
import ServiceWatch.Memory.Json
import ServiceWatch.Metrics.Exposition
import ServiceWatch.Metrics.Scrape
import ServiceWatch.Mismatch
import ServiceWatch.Path
import ServiceWatch.Plan
import ServiceWatch.Probe
import ServiceWatch.Probe.Json
import ServiceWatch.Proofs.Basic
import ServiceWatch.Proofs.Binary64.Digits
import ServiceWatch.Proofs.Binary64.PowerOfTen
import ServiceWatch.Proofs.Binary64.Rounding
import ServiceWatch.Proofs.Binary64.Shortest
import ServiceWatch.Proofs.Binary64.Whole
import ServiceWatch.Proofs.CommandLine.Alert
import ServiceWatch.Proofs.CommandLine.Check
import ServiceWatch.Proofs.CommandLine.Independence
import ServiceWatch.Proofs.CommandLine.Lines
import ServiceWatch.Proofs.CommandLine.Settings
import ServiceWatch.Proofs.CommandLine.Show
import ServiceWatch.Proofs.Disk.Allows
import ServiceWatch.Proofs.Disk.Differ
import ServiceWatch.Proofs.Disk.Follow
import ServiceWatch.Proofs.Disk.Nodes
import ServiceWatch.Proofs.Disk.Sibling
import ServiceWatch.Proofs.Disk.Vacant
import ServiceWatch.Proofs.Endpoint
import ServiceWatch.Proofs.Endpoint.Excerpt
import ServiceWatch.Proofs.Interference
import ServiceWatch.Proofs.Json.Float
import ServiceWatch.Proofs.Json.Grammar
import ServiceWatch.Proofs.Json.Layout
import ServiceWatch.Proofs.Json.Members
import ServiceWatch.Proofs.Json.Number
import ServiceWatch.Proofs.Json.Numeral
import ServiceWatch.Proofs.Json.Object
import ServiceWatch.Proofs.Json.Passage
import ServiceWatch.Proofs.Json.Record
import ServiceWatch.Proofs.Json.Refusal
import ServiceWatch.Proofs.Json.Scan
import ServiceWatch.Proofs.Json.Style
import ServiceWatch.Proofs.Json.Tagged
import ServiceWatch.Proofs.Json.Tree
import ServiceWatch.Proofs.Json.Typed
import ServiceWatch.Proofs.Memory.Document
import ServiceWatch.Proofs.Memory.Foreign
import ServiceWatch.Proofs.Memory.Json
import ServiceWatch.Proofs.Metrics.Exposition
import ServiceWatch.Proofs.Metrics.Rearrangement
import ServiceWatch.Proofs.Metrics.Scrape
import ServiceWatch.Proofs.Path
import ServiceWatch.Proofs.Plan
import ServiceWatch.Proofs.Probe.Healthy
import ServiceWatch.Proofs.Probe.History
import ServiceWatch.Proofs.Probe.Independence
import ServiceWatch.Proofs.Probe.Json
import ServiceWatch.Proofs.Probe.Lines
import ServiceWatch.Proofs.Probe.Persistence
import ServiceWatch.Proofs.Probe.Report
import ServiceWatch.Proofs.Probe.Run
import ServiceWatch.Proofs.Probe.Stalled
import ServiceWatch.Proofs.Probe.Stuck
import ServiceWatch.Proofs.Probe.Unreadable
import ServiceWatch.Proofs.Probe.Write
import ServiceWatch.Proofs.Report
import ServiceWatch.Proofs.Report.Body
import ServiceWatch.Proofs.Report.Json
import ServiceWatch.Proofs.Settings.Layer
import ServiceWatch.Proofs.Stall.Gap
import ServiceWatch.Proofs.Stall.History
import ServiceWatch.Proofs.Store.CutOff
import ServiceWatch.Proofs.Store.Draft
import ServiceWatch.Proofs.Store.Failure
import ServiceWatch.Proofs.Store.Load
import ServiceWatch.Proofs.Store.Message
import ServiceWatch.Proofs.Store.Outcome
import ServiceWatch.Proofs.Store.Overlap
import ServiceWatch.Proofs.Store.Register
import ServiceWatch.Proofs.Store.RoundTrip
import ServiceWatch.Proofs.Store.Save
import ServiceWatch.Proofs.Store.Twins
import ServiceWatch.Proofs.Text.Blank
import ServiceWatch.Proofs.Text.Line
import ServiceWatch.Proofs.Text.Offset
import ServiceWatch.Proofs.Text.Split
import ServiceWatch.Proofs.Text.Trim
import ServiceWatch.Proofs.Text.Utf8
import ServiceWatch.Report
import ServiceWatch.Report.Json
import ServiceWatch.ServiceState
import ServiceWatch.Settings
import ServiceWatch.Settings.File
import ServiceWatch.Settings.Json
import ServiceWatch.Settings.Toml
import ServiceWatch.Stall
import ServiceWatch.Store
import ServiceWatch.SystemError
import ServiceWatch.Text.Blank
import ServiceWatch.Text.Line
import ServiceWatch.Text.Printable
import ServiceWatch.Text.Quoted
import ServiceWatch.Text.Split
import ServiceWatch.Text.Utf8
import ServiceWatch.Toml.Document
import ServiceWatch.Toml.Fault
import ServiceWatch.Toml.Item
import ServiceWatch.Toml.Number
import ServiceWatch.Toml.Scan
import ServiceWatch.Toml.Value
