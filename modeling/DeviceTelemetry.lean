import DeviceTelemetry.Main
import DeviceTelemetry.Ring.Operation
import DeviceTelemetry.Proofs.RingRefinement
import DeviceTelemetry.Proofs.RecordQueue.Basic
import DeviceTelemetry.Proofs.RecordQueue.Writing
import DeviceTelemetry.Proofs.RecordQueue.Reading
import DeviceTelemetry.Proofs.RecordQueue.Refinement
import DeviceTelemetry.Proofs.EventList
import DeviceTelemetry.Proofs.RecordQueue.Contents
import DeviceTelemetry.Proofs.RecordQueue.Marking
import DeviceTelemetry.Proofs.EncodedSize
import DeviceTelemetry.Proofs.RecordQueue.Recording
import DeviceTelemetry.Proofs.RecordQueue.Parallel
import DeviceTelemetry.Proofs.RecordQueue.Rollback
import DeviceTelemetry.Proofs.RecordQueue.Spillover
import DeviceTelemetry.Proofs.CatalogLaws
import DeviceTelemetry.Proofs.Truncation
import DeviceTelemetry.Proofs.TableSteps
import DeviceTelemetry.Proofs.TableFrames
import DeviceTelemetry.Proofs.LargestEvent
import DeviceTelemetry.Proofs.RecordQueue.Atomicity
import DeviceTelemetry.Proofs.SizeBound
import DeviceTelemetry.Proofs.Cbor.Decoding
import DeviceTelemetry.Proofs.Cbor.WellFormed
import DeviceTelemetry.Proofs.RecordQueue.Batching
import DeviceTelemetry.Proofs.EventValue
import DeviceTelemetry.Proofs.EventFormat
import DeviceTelemetry.Proofs.Agent.Steps
import DeviceTelemetry.Proofs.Agent.Footprint
import DeviceTelemetry.Proofs.Agent.Invariant
import DeviceTelemetry.Proofs.Agent.EmptyStore
import DeviceTelemetry.Proofs.Agent.BootGuarantee
import DeviceTelemetry.Proofs.Agent.Attempts
import DeviceTelemetry.Proofs.Agent.Accounting
import DeviceTelemetry.Proofs.TimerMoves
import DeviceTelemetry.Proofs.Agent.Timing
import DeviceTelemetry.Proofs.Agent.Cycle
import DeviceTelemetry.Proofs.Agent.RunningTime
import DeviceTelemetry.Proofs.Agent.SessionTime
import DeviceTelemetry.Proofs.TablesApart
import DeviceTelemetry.Proofs.Agent.Apart
import DeviceTelemetry.Proofs.Agent.Separation
import DeviceTelemetry.Proofs.Agent.BootSuccess
import DeviceTelemetry.Proofs.Agent.Settings
import DeviceTelemetry.Proofs.RecordQueue.OneLimit
import DeviceTelemetry.Proofs.Simulation.Script
import DeviceTelemetry.Proofs.Simulation.Life
import DeviceTelemetry.Proofs.Simulation.Rounds
import DeviceTelemetry.Proofs.Simulation.Outcome
import DeviceTelemetry.Proofs.Json.Writing
import DeviceTelemetry.Proofs.Json.Reading
import DeviceTelemetry.Proofs.Json.Records
import DeviceTelemetry.Proofs.Json.Taking
import DeviceTelemetry.Proofs.Json.Conformance
import DeviceTelemetry.Proofs.RoundTrip
import DeviceTelemetry.Proofs.CatalogNames
import DeviceTelemetry.Proofs.CollectorKeys
import DeviceTelemetry.Proofs.Agent.Collecting
import DeviceTelemetry.Proofs.Cbor.Encoding
import DeviceTelemetry.Proofs.RecordQueue.Encoding
import DeviceTelemetry.Proofs.RecordQueue.Sinks
import DeviceTelemetry.Proofs.RecordQueue.Window
import DeviceTelemetry.Proofs.RecordQueue.Persisting
import DeviceTelemetry.Proofs.StrictRing
import DeviceTelemetry.Proofs.RecordQueue.Strict
import DeviceTelemetry.Proofs.RecordQueue.Slices
import DeviceTelemetry.Proofs.TimerIntervals
import DeviceTelemetry.Proofs.SchemaValidity
import DeviceTelemetry.Proofs.CatalogIndex
import DeviceTelemetry.Proofs.SchemaGrowth
import DeviceTelemetry.Proofs.TableCounts
import DeviceTelemetry.Proofs.CollectorCalls
import DeviceTelemetry.Proofs.Agent.TableCalls
import DeviceTelemetry.Proofs.Agent.Heartbeats
import DeviceTelemetry.Proofs.Agent.OperationalHours
import DeviceTelemetry.Proofs.Agent.BatteryDrop
import DeviceTelemetry.Proofs.Agent.ConnectionTime
import DeviceTelemetry.Proofs.Agent.TextBuffer
import DeviceTelemetry.Proofs.MailboxRaces
