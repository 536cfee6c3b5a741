import Corun.Announcement
import Corun.Benchmark
import Corun.Child.Call
import Corun.Child.Gated
import Corun.Child.Life
import Corun.Child.Phase
import Corun.Simulation.Child
import Corun.Child.Termination
import Corun.CommandLine
import Corun.Config.Basic
import Corun.Config.Schema
import Corun.Config.Parse
import Corun.Counter.Event
import Corun.Counter.Group
import Corun.Counter.Mode
import Corun.Counter.Sample
import Corun.Counter.Sampler
import Corun.Counter.Source
import Corun.Cpu.Hopper
import Corun.Cpu.Table
import Corun.Failure
import Corun.Simulation.Family
import Corun.Json.Decode
import Corun.Json.Doc
import Corun.Json.Fault
import Corun.Json.Library
import Corun.Json.Literal
import Corun.Json.Reader
import Corun.Json.Schema
import Corun.Log
import Corun.Machine
import Corun.Main
import Corun.Note
import Corun.Number.Binary64
import Corun.Number.Fixed
import Corun.Simulation.Number.Grid
import Corun.Simulation.Number.Scientific
import Corun.Number.Shortest
import Corun.Simulation.Number.Written
import Corun.Os.Affinity
import Corun.Os.Channel
import Corun.Os.Errno
import Corun.Simulation.FileTree
import Corun.Simulation.Host
import Corun.Simulation.Kernel
import Corun.Os.Pid
import Corun.Os.PidMap
import Corun.Os.Signal
import Corun.Simulation.SmallTree
import Corun.Os.WaitStatus
import Corun.Outcome
import Corun.Simulation.Program.Duration
import Corun.Simulation.Program.Execution
import Corun.Simulation.Program.Job
import Corun.Simulation.Program.Launch
import Corun.Simulation.Program.Options
import Corun.Simulation.Program.Reckoning
import Corun.Simulation.Program.Setting
import Corun.Simulation.Program.Splitting
import Corun.Simulation.Program.Task
import Corun.Proofs.Counter.Gauge
import Corun.Proofs.Counter.Histories
import Corun.Proofs.Counter.Ledger
import Corun.Proofs.Counter.Readings
import Corun.Proofs.Counter.Refusals
import Corun.Proofs.Counter.Sampling
import Corun.Proofs.Counter.Telescoping
import Corun.Proofs.Cpu.Calls
import Corun.Proofs.Cpu.Pins
import Corun.Proofs.Cpu.Rebinding
import Corun.Proofs.Cpu.Settled
import Corun.Proofs.Cpu.Shifts
import Corun.Proofs.Cpu.Table
import Corun.Proofs.Machine
import Corun.Proofs.PidMap
import Corun.Proofs.Supervisor.Course
import Corun.Proofs.Supervisor.Delivery
import Corun.Proofs.Supervisor.Leftovers
import Corun.Proofs.Supervisor.Lifecycle
import Corun.Proofs.Supervisor.Moves
import Corun.Proofs.Supervisor.Trace
import Corun.Simulation.Clock
import Corun.Run.Position
import Corun.Run.Preparation
import Corun.Run.State
import Corun.Simulation.Shell.Builtin
import Corun.Simulation.Shell.Environment
import Corun.Simulation.Shell.Escape
import Corun.Simulation.Shell.Expansion
import Corun.Simulation.Shell.Invocation
import Corun.Simulation.Shell.Lookup
import Corun.Simulation.Shell.Pattern
import Corun.Simulation.Shell.Printf
import Corun.Simulation.Shell.Question
import Corun.Simulation.Shell.Reader
import Corun.Simulation.Shell.Scope
import Corun.Simulation.Shell.Script
import Corun.Simulation.Shell.Session
import Corun.Simulation.Shell.SignalName
import Corun.Simulation.Shell.Sum
import Corun.Simulation.Shell.Turn
import Corun.Strategy.Basic
import Corun.Strategy.Catalogue
import Corun.Strategy.Script
import Corun.Simulation.Supervisor
import Corun.Supervisor.Stage
import Corun.Supervisor.State
import Corun.Sync.Alarm
import Corun.Sync.Bell
import Corun.Sync.Flags
import Corun.Sync.Latch
import Corun.Sync.Queue
import Corun.Text.Blank
import Corun.Simulation.Lossy
import Corun.Text.Plain
import Corun.Text.Printable
import Corun.Text.Quoted
import Corun.Watch
import Corun.Proofs.Watch.Moves
import Corun.Proofs.Watch.Registrations
import Corun.Proofs.Watch.Publication
import Corun.Proofs.Child.Tended
import Corun.Proofs.Child.OwnerSteps
import Corun.Proofs.Child.Effects
import Corun.Proofs.Child.Changes
import Corun.Proofs.Child.Shared
import Corun.Proofs.Child.Record
import Corun.Proofs.Child.Reaping
import Corun.Proofs.Child.Waits
import Corun.Proofs.Run.Moves
import Corun.Proofs.Run.Children
import Corun.Proofs.Run.Cleanup
import Corun.Proofs.Run.Consulting
import Corun.Proofs.Run.Release
import Corun.Proofs.Run.Awaiting
import Corun.Proofs.Run.Stopping
import Corun.Proofs.Run.Returning
import Corun.Proofs.Child.Latching
import Corun.Proofs.Child.Wiring
import Corun.Proofs.Child.Handshake
import Corun.Proofs.Counter.Sweeps
import Corun.Proofs.Counter.Isolation
import Corun.Proofs.Counter.Scaling
import Corun.Proofs.Sync.Handover
import Corun.Proofs.Child.Gating
import Corun.Proofs.Run.Stranding
import Corun.Proofs.Json.Spelling
import Corun.Proofs.Json.Numerals
import Corun.Proofs.Json.Grammar
import Corun.Proofs.Json.Reading
import Corun.Proofs.Json.Decoding
import Corun.Proofs.Json.Documented
import Corun.Proofs.Json.Records
import Corun.Proofs.Config.Writings
import Corun.Proofs.Config.Parsing
import Corun.Proofs.Counter.Baselines
import Corun.Proofs.Counter.Stalls
import Corun.Proofs.Cpu.Rotation
import Corun.Proofs.Cpu.Ring
import Corun.Proofs.Cpu.Admission
import Corun.Proofs.Text.Words
import Corun.Proofs.Config.Validity
import Corun.Proofs.Supervisor.Joining
import Corun.Proofs.Sync.Cancellation
import Corun.Proofs.Cpu.Occupancy
