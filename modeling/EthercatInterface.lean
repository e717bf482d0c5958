import EthercatInterface.Proof.Sections
import EthercatInterface.Mailbox.Accesses
import EthercatInterface.Mailbox.Drain
import EthercatInterface.Mailbox.Request
import EthercatInterface.Mailbox.Isolation
import EthercatInterface.Mailbox.Counters
import EthercatInterface.Threads.Cycle
import EthercatInterface.Threads.Exchange
import EthercatInterface.Dictionary.Spec
import EthercatInterface.Dictionary.Lookup
import EthercatInterface.Threads.BusWrite
import EthercatInterface.Image.Staging
import EthercatInterface.Lib.Atomic
import EthercatInterface.Threads.Operational
import EthercatInterface.Threads.Forward
import EthercatInterface.Threads.Close
import EthercatInterface.Threads.State
import EthercatInterface.Image.Bounds
import EthercatInterface.Proof.Members
import EthercatInterface.Lib.History
import EthercatInterface.Proof.Promise
import EthercatInterface.Lifecycle.Destruction
import EthercatInterface.Lifecycle.Callbacks
import EthercatInterface.Lifecycle.Shutdown
import EthercatInterface.Lifecycle.Transmission
import EthercatInterface.Lifecycle.Interface
import EthercatInterface.Lifecycle.Run
import EthercatInterface.Lifecycle.Effect
import EthercatInterface.Lifecycle.Rules
import EthercatInterface.Lifecycle.Core
import EthercatInterface.Lib.Machine
import EthercatInterface.Proof.Footprint
import EthercatInterface.Spec.Bus
import EthercatInterface.Spec.Update
import EthercatInterface.Spec.Backend
import EthercatInterface.Spec.Mailbox
import EthercatInterface.Spec.Action
import EthercatInterface.Lib.Pool
import EthercatInterface.Lib.Triple
import EthercatInterface.Proof.Triples
import EthercatInterface.Lifecycle.Buffers
import EthercatInterface.Lifecycle.Teardown
import EthercatInterface.Lifecycle.Detached
import EthercatInterface.Lib.Locks
import EthercatInterface.Threads.Order
import EthercatInterface.Timing.UpdateRate
import EthercatInterface.Timing.ClockSync
import EthercatInterface.Timing.CycleTime
import EthercatInterface.Timing.OperationalTimeout
import EthercatInterface.Diagnostics.Reported
import EthercatInterface.Diagnostics.Service
import EthercatInterface.Diagnostics.Frames
import EthercatInterface.Lifecycle.Lowered
import EthercatInterface.Lifecycle.Tables
import EthercatInterface.Dictionary.Read
import EthercatInterface.Mailbox.Ledger
import EthercatInterface.Threads.Gate
import EthercatInterface.Threads.Accesses
import EthercatInterface.Lib.Rely
import EthercatInterface.Lib.Lift
import EthercatInterface.Spec.Executor
import EthercatInterface.Executor.Pact
import EthercatInterface.Executor.Workers
import EthercatInterface.Executor.Stop
import EthercatInterface.Executor.Uses
import EthercatInterface.Executor.RtView
import EthercatInterface.Executor.Spinning
import EthercatInterface.Executor.Handles
import EthercatInterface.Executor.Rounds
import EthercatInterface.Lib.LittleEndian
import EthercatInterface.Spec.Print
import EthercatInterface.Dictionary.Print
import EthercatInterface.Lib.RoundRobin
import EthercatInterface.Diagnostics.Ports
import EthercatInterface.Lib.Lockset
import EthercatInterface.Proof.Discipline
import EthercatInterface.Lib.Conflict
import EthercatInterface.Threads.Shared
import EthercatInterface.Threads.Races
import EthercatInterface.Lib.Progress
import EthercatInterface.Lifecycle.Fleet
import EthercatInterface.Lifecycle.BringUp
import EthercatInterface.Lifecycle.Automaton
import EthercatInterface.Diagnostics.Topology
import EthercatInterface.Lib.Layout
import EthercatInterface.Lib.Cell
import EthercatInterface.Spec.Typed
import EthercatInterface.Mailbox.ReadBack
import EthercatInterface.Lib.Poll
import EthercatInterface.Timing.Pace
import EthercatInterface.Lib.Conclude
import EthercatInterface.Spec.Scanner
import EthercatInterface.Tools.Scanner
import EthercatInterface.Lib.Pipeline
import EthercatInterface.Threads.Accessors
import EthercatInterface.Threads.Echo
