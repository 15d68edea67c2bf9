import Sim6809.Main
import Sim6809.Proofs.Interrupt.Stimulus
import Sim6809.Proofs.Interrupt.Admission
import Sim6809.Proofs.Listing.Agreement
import Sim6809.Proofs.Board.Setup
import Sim6809.Proofs.Board.Replay
import Sim6809.Proofs.Interrupt.Return
import Sim6809.Proofs.Processor.Fault
import Sim6809.Proofs.Run.Outcome
import Sim6809.Proofs.Run.Breakpoint
import Sim6809.Proofs.Run.Resume
import Sim6809.Proofs.Listing.Trace
import Sim6809.Proofs.Interrupt.Latest
import Sim6809.Proofs.Board.Acknowledgement
import Sim6809.Proofs.Board.Period
import Sim6809.Proofs.Listing.OwnBytes
import Sim6809.Proofs.Listing.Encoding
import Sim6809.Proofs.Processor.Snapshot
import Sim6809.Proofs.Interrupt.Wait
import Sim6809.Proofs.Processor.Footprint
import Sim6809.Proofs.Processor.ConditionCodes
import Sim6809.Proofs.CommandLine.Registers
import Sim6809.Proofs.Run.StepOver
import Sim6809.Proofs.Processor.EffectiveAddress
import Sim6809.Proofs.Processor.Comparison
import Sim6809.Proofs.Processor.RegisterMask
import Sim6809.Proofs.Processor.Calls
import Sim6809.Proofs.Board.Clock
import Sim6809.Proofs.Arithmetic.Decimal
import Sim6809.Proofs.Arithmetic.Shift
import Sim6809.Proofs.Processor.Transfer
import Sim6809.Proofs.Listing.Range
import Sim6809.Proofs.Listing.Window
import Sim6809.Proofs.Processor.Stuck
import Sim6809.Proofs.Run.Faulted
import Sim6809.Proofs.Board.Console
import Sim6809.Proofs.Board.Load
import Sim6809.Proofs.CommandLine.Address
import Sim6809.Proofs.Listing.Symbols
import Sim6809.Proofs.Listing.Columns
import Sim6809.Proofs.Listing.RegisterFile
import Sim6809.Proofs.Memory.Dump
