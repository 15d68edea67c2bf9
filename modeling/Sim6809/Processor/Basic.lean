import Sim6809.Bus
import Sim6809.Isa.Instruction

/-!
The processor and its bus. What the processor fetches it reads through the bus, so a handler sees
every fetch, and the program counter moves past each byte as it is fetched.
-/
namespace Sim6809

inductive Event
  | swi3 | swi2 | firq | irq | swi | nmi | reset
  deriving DecidableEq, Repr

def Event.vector : Event → UInt16
  | swi3 => 0xFFF2
  | swi2 => 0xFFF4
  | firq => 0xFFF6
  | irq => 0xFFF8
  | swi => 0xFFFA
  | nmi => 0xFFFC
  | reset => 0xFFFE

def InterruptLine.event : InterruptLine → Event
  | nmi => .nmi
  | irq => .irq
  | firq => .firq

inductive WaitState
  | running
  /-- Ended by any asserted line, masked or not. -/
  | syncWait
  /-- Ended by an interrupt; the registers are on the stack already. -/
  | cwaiWait
  deriving DecidableEq, Repr

def WaitState.name : WaitState → String
  | running => "Running"
  | syncWait => "SyncWait"
  | cwaiWait => "CwaiWait"

inductive Fault
  | mismatchedRegisters (source destination : Register)
  deriving DecidableEq, Repr

def Fault.message : Fault → String
  | mismatchedRegisters source destination =>
    "mismatched register types: " ++ source.name ++ " (" ++ toString source.width ++ "-bit) and " ++
      destination.name ++ " (" ++ toString destination.width ++ "-bit)"

/-- The processor: registers, the address that the last operand had, latches, wait state, and the
counts of cycles, of executed steps and of interrupts. The counts stand for counters of 64 bits; they
leave that range after some quintillion cycles at the earliest. -/
structure Cpu where
  regs : Registers
  ea : UInt16
  latches : Latches
  wait : WaitState
  cycles : Nat
  executed : Nat
  interrupts : Nat
  deriving DecidableEq, Repr

namespace Cpu

def zero : Cpu := ⟨.zero, 0, .clear, .running, 0, 0, 0⟩

def resetStack : UInt16 := 0x0500

/-- The processor after a reset that found the given address in the vector: both interrupts are
masked and everything else is zero. -/
def afterReset (pc : UInt16) : Cpu :=
  { zero with regs := { Registers.zero with s := resetStack, pc, cc := Flags.clear.maskInterrupts } }

def isWaiting (cpu : Cpu) : Bool := cpu.wait != .running

/-- The interrupt that the latches and masks admit: NMI before IRQ before FIRQ. -/
def admission? (cpu : Cpu) : Option InterruptLine :=
  if cpu.latches.nmi then some .nmi
  else if cpu.latches.irq && !cpu.regs.cc.irqMask then some .irq
  else if cpu.latches.firq && !cpu.regs.cc.firqMask then some .firq
  else none

end Cpu

structure Core where
  cpu : Cpu
  bus : Bus

namespace Core

def regs (c : Core) : Registers := c.cpu.regs

def setRegs (c : Core) (regs : Registers) : Core := { c with cpu := { c.cpu with regs } }

def setFlags (c : Core) (cc : Flags) : Core := c.setRegs { c.regs with cc }

def setPc (c : Core) (pc : UInt16) : Core := c.setRegs { c.regs with pc }

def setEa (c : Core) (ea : UInt16) : Core := { c with cpu := { c.cpu with ea } }

def setWait (c : Core) (wait : WaitState) : Core := { c with cpu := { c.cpu with wait } }

def addRecord (c : Core) (level : Level) (text : String) : Core :=
  { c with bus := c.bus.addRecord level text }

def setLine (c : Core) (line : InterruptLine) (level : Bool) : Core :=
  { c with cpu := { c.cpu with latches := c.cpu.latches.set line level } }

def readByte (c : Core) (address : UInt16) : UInt8 × Core :=
  let (value, bus) := c.bus.cpuRead address
  (value, { c with bus })

def readWord (c : Core) (address : UInt16) : UInt16 × Core :=
  let (value, bus) := c.bus.cpuReadWord address
  (value, { c with bus })

def writeByte (c : Core) (address : UInt16) (value : UInt8) : Core :=
  { c with bus := c.bus.cpuWrite address value }

def writeWord (c : Core) (address value : UInt16) : Core :=
  { c with bus := c.bus.cpuWriteWord address value }

def fetchByte (c : Core) : UInt8 × Core :=
  let pc := c.regs.pc
  let (value, c) := c.readByte pc
  (value, c.setPc (pc + 1))

def fetchWord (c : Core) : UInt16 × Core :=
  let (high, c) := c.fetchByte
  let (low, c) := c.fetchByte
  (Word.join high low, c)

/-- Sets the processor to its state after a reset, with the program counter from the vector. -/
def reset (c : Core) : Core :=
  let (pc, c) := c.readWord Event.reset.vector
  { c with cpu := .afterReset pc }.addRecord .debug ("reset: PC=$" ++ Hex.word pc)

end Core
end Sim6809
