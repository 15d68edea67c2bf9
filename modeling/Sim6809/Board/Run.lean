import Sim6809.Board

/-!
Runs. A run steps the board until a breakpoint, its limit, a fault or a request to stop. Breakpoints
are looked at after a step, so a run that begins on one leaves it, and the question whether to
stop is put every 1024 steps.
-/
namespace Sim6809

inductive StopReason
  | breakpoint (address : UInt16)
  | limit
  | fault (fault : Fault)
  | requested
  deriving DecidableEq, Repr

namespace StopReason

def describe : StopReason → String
  | breakpoint address => "breakpoint at $" ++ Hex.word address
  | limit => "instruction limit"
  | fault f => "fault: " ++ f.message
  | requested => "stop requested"

def kind : StopReason → String
  | breakpoint _ => "Breakpoint"
  | limit => "Limit"
  | fault _ => "Fault"
  | requested => "Requested"

def record : StopReason → String
  | breakpoint address => "Breakpoint(" ++ toString address.toNat ++ ")"
  | limit => "Limit"
  | fault (.mismatchedRegisters source destination) =>
    "Fault(MismatchedRegisters \x7b source: " ++ source.title ++ ", destination: " ++
      destination.title ++ " \x7d)"
  | requested => "Requested"

end StopReason

/-- How a run ended: the reason, the steps it made, and how often it asked whether to stop. -/
structure RunOutcome where
  reason : StopReason
  steps : Nat
  asked : Nat
  deriving DecidableEq, Repr

/-- What ends a run: a limit on its steps, breakpoints, and the answers to the question whether to
stop, by the number of the question from one on. -/
structure RunControl where
  limit : Option Nat
  breakpoints : List UInt16
  stop : Nat → Bool

namespace RunControl

def interval : Nat := 1024

def unasked (limit : Option Nat) (breakpoints : List UInt16) : RunControl :=
  ⟨limit, breakpoints, fun _ => false⟩

def asksAt (steps : Nat) : Bool := steps != 0 && steps % interval == 0

def limitReached (control : RunControl) (steps : Nat) : Bool :=
  match control.limit with
  | some limit => limit ≤ steps
  | none => false

def breaksAt (control : RunControl) (b : Board) : Bool :=
  !b.cpu.isWaiting && control.breakpoints.contains b.pc

end RunControl

namespace Board

/-- One round of a run that has made some steps and asked some questions. It ends the run, or comes
to a board one step on with the questions asked so far. -/
def round (control : RunControl) (steps asked : Nat) (b : Board) :
    (RunOutcome × Board) ⊕ (Nat × Board) :=
  if control.limitReached steps then .inl (⟨.limit, steps, asked⟩, b)
  else
    let asks := RunControl.asksAt steps
    let asked := asked + asks.toNat
    if asks && control.stop asked then .inl (⟨.requested, steps, asked⟩, b)
    else
      match b.step with
      | (.error fault, b) =>
        let text := "fault at $" ++ Hex.word b.pc ++ ": " ++ fault.message
        .inl (⟨.fault fault, steps, asked⟩, b.setMonitor (b.monitor.addRecord .warn text))
      | (.ok _, b) =>
        if control.breaksAt b then .inl (⟨.breakpoint b.pc, steps + 1, asked⟩, b)
        else .inr (asked, b)

/-- Goes on with a run round by round; nothing if the run never ends. -/
def goOn (control : RunControl) (steps asked : Nat) (b : Board) : Option (RunOutcome × Board) :=
  match round control steps asked b with
  | .inl ended => some ended
  | .inr (asked, b) => b |>.goOn control (steps + 1) asked
partial_fixpoint

def logOutcome (b : Board) (outcome : RunOutcome) : Board :=
  b.setMonitor (b.monitor.addRecord .debug ("run stopped after " ++ toString outcome.steps ++
    " instructions: " ++ outcome.reason.record))

/-- Runs until something ends the run; nothing for a run that never ends. -/
def run? (b : Board) (control : RunControl) : Option (RunOutcome × Board) :=
  (goOn control 0 0 b).map fun (outcome, b) => (outcome, b.logOutcome outcome)

/-- What ends a step over the instruction at the program counter: for a call its return address and
the given breakpoints, for any other instruction a single step. -/
def stepOverControl (b : Board) (limit : Option Nat) (breakpoints : List UInt16) : RunControl :=
  let op := b.monitor.disassemble b.pc
  if b.cpu.isWaiting || !op.instruction.isCall then .unasked (some 1) []
  else .unasked limit (breakpoints ++ [op.next])

/-- Runs over the instruction at the program counter; a call is run until it returns. -/
def stepOver? (b : Board) (limit : Option Nat) (breakpoints : List UInt16) :
    Option (RunOutcome × Board) :=
  let op := b.monitor.disassemble b.pc
  (b.setMonitor (b.monitor.addComplaints [op])).run? (b.stepOverControl limit breakpoints)

end Board
end Sim6809
