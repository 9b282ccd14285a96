import HartBoot.Boot.Operations
import HartBoot.Boot.Sequence
import HartBoot.Console.Basic
import HartBoot.Console.Script
import HartBoot.Fault
import HartBoot.FlagSet
import HartBoot.Inspect
import HartBoot.Layout
import HartBoot.LinkScript
import HartBoot.Log.Level
import HartBoot.Log.Record
import HartBoot.Machine.Assembly
import HartBoot.Machine.Board
import HartBoot.Machine.Image
import HartBoot.Machine.Script
import HartBoot.Memory
import HartBoot.Platform
import HartBoot.Proofs.Boot.Clearing
import HartBoot.Proofs.Boot.Congruence
import HartBoot.Proofs.Boot.Parts
import HartBoot.Proofs.Register.Status
import HartBoot.Proofs.Runs
import HartBoot.Proofs.Sim.Changes
import HartBoot.Proofs.Sim.Congruence
import HartBoot.Proofs.Sim.Depth
import HartBoot.Proofs.Sim.Effects
import HartBoot.Proofs.Sim.Entry
import HartBoot.Proofs.Sim.Replay
import HartBoot.Register.InterruptMask
import HartBoot.Register.Pmp
import HartBoot.Register.Status
import HartBoot.Register.TrapVector
import HartBoot.Register.Write
import HartBoot.Sim.Event
import HartBoot.Sim.Hart
import HartBoot.Sim.History
import HartBoot.Sim.Registers
import HartBoot.Sim.Routine
import HartBoot.Sim.Run
import HartBoot.Stage
import HartBoot.Transition
import HartBoot.Trap.Cause
import HartBoot.Word
import HartBoot.Proofs.Sim.ResetTrace
import HartBoot.Proofs.Machine.Departure
import HartBoot.Proofs.Machine.ResetVector
import HartBoot.Proofs.Machine.Encoding
import HartBoot.Proofs.Machine.Entry
import HartBoot.Proofs.Machine.Agreement
import HartBoot.Proofs.Console.Lock
import HartBoot.Proofs.Sim.Privilege
import HartBoot.Proofs.Sim.InterruptWindow
import HartBoot.Proofs.Sim.Registry
import HartBoot.Proofs.Sim.Election
import HartBoot.Proofs.Sim.Clearing
import HartBoot.Proofs.Boot.Validation
import HartBoot.Proofs.Console.Delivery
import HartBoot.Proofs.Sim.Atomicity
import HartBoot.Proofs.Sim.VectorWindow
import HartBoot.Proofs.Boot.LayoutMessage
import HartBoot.Proofs.Machine.TrapReport
import HartBoot.Proofs.Machine.BootReport
import HartBoot.Proofs.Sim.Brackets
import HartBoot.Proofs.Register.Codes
import HartBoot.Proofs.Sim.Mutations
import HartBoot.Proofs.Trap.Cause
import HartBoot.Proofs.Register.StatusCodec
import HartBoot.Proofs.Trap.Message
import HartBoot.Proofs.Machine.VectorFields
import HartBoot.Proofs.Boot.Stages
import HartBoot.Proofs.Sim.Stages
import HartBoot.Proofs.Sim.Logging
import HartBoot.Proofs.LinkScript
import HartBoot.Proofs.Log.Stream
import HartBoot.Proofs.Sim.Refusals
