import Sim6809.Processor.Execute

/-!
One step of the processor. The waiting line requests are applied first, then at most one interrupt
is admitted. NMI and IRQ end the step with their entry; a FIRQ entry goes on with the first
instruction of its handler, and so does a step without an interrupt with the next instruction.
-/
namespace Sim6809.Core

/-- Applies the waiting line requests to the latches, the oldest first. -/
def applyRequests (c : Core) : Core where
  cpu := { c.cpu with latches := c.cpu.latches.applyAll c.bus.requests }
  bus := { c.bus with requests := [] }

/-- The cycles of an interrupt's entry. After CWAI only the vector is fetched. -/
def entryCycles (wait : WaitState) (line : InterruptLine) : Nat :=
  match wait, line with
  | .cwaiWait, _ => 7
  | _, .firq => 10
  | _, _ => 19

def pushFrame (c : Core) (line : InterruptLine) : Core :=
  match c.cpu.wait, line with
  | .cwaiWait, _ => c
  | _, .firq => c.pushFast
  | _, _ => c.pushEntire

/-- Drops the latch of an interrupt that is served; NMI stays until it is deasserted. -/
def acknowledge (c : Core) : InterruptLine → Core
  | .nmi => c
  | line => c.setLine line false

/-- Enters an interrupt: its frame is pushed, both masks are set, the wait ends and the program
counter comes from the vector. -/
def enter (c : Core) (line : InterruptLine) : Core :=
  let c := c.pushFrame line
  let c := (c.setFlags c.regs.cc.maskInterrupts).setWait .running
  let c := { c with cpu := { c.cpu with interrupts := c.cpu.interrupts + 1 } }.acknowledge line
  let (pc, c) := c.readWord line.event.vector
  (c.setPc pc).addRecord .debug (line.name ++ " admitted, vector $" ++ Hex.word line.event.vector ++
    " -> $" ++ Hex.word pc)

def releaseSync (c : Core) : Core :=
  if c.cpu.wait = .syncWait && c.cpu.latches.any then
    (c.addRecord .debug "SYNC released by masked interrupt request").setWait .running
  else c

def account (c : Core) (cycles : Nat) : Core :=
  { c with cpu := { c.cpu with cycles := c.cpu.cycles + cycles, executed := c.cpu.executed + 1 } }

def fetchOpcode (c : Core) : (Page × UInt8) × Core :=
  let (first, c) := c.fetchByte
  match Page.ofByte? first with
  | none => ((.unprefixed, first), c)
  | some page =>
    let (second, c) := c.fetchByte
    ((page, second), c)

def undefinedText (page : Page) (byte : UInt8) (address : UInt16) : String :=
  let shown :=
    match page.prefixByte? with
    | some first => "$" ++ Hex.byte first ++ " $" ++ Hex.byte byte
    | none => "$" ++ Hex.byte byte
  "undefined opcode " ++ shown ++ " at $" ++ Hex.word address ++ ", executed as no-op"

/-- Fetches and executes the instruction at the program counter; gives its cycles. -/
def perform (c : Core) : Except Fault Nat × Core :=
  let start := c.regs.pc
  let ((page, byte), c) := c.fetchOpcode
  let c :=
    if (Opcode.lookup? page byte).isNone then c.addRecord .warn (undefinedText page byte start)
    else c
  let opcode := Opcode.lookup page byte
  let (modeCycles, c) := c.locate opcode.mode
  match c.execute opcode.instruction with
  | (.ok extra, c) => (.ok (opcode.cycles + modeCycles + extra), c)
  | (.error fault, c) => (.error fault, c)

/-- The step after the admission of interrupts, with the cycles spent so far. A waiting processor
spends one cycle; an instruction that fails leaves the registers as they were before it. -/
def proceed (c : Core) (spent : Nat) : Except Fault Nat × Core :=
  let c := c.releaseSync
  if c.cpu.isWaiting then (.ok (spent + 1), c.account (spent + 1))
  else
    match c.perform with
    | (.ok cycles, d) => (.ok (spent + cycles), d.account (spent + cycles))
    | (.error fault, d) => (.error fault, d.setRegs c.regs)

/-- One step; gives the cycles that it took. -/
def step (c : Core) : Except Fault Nat × Core :=
  let c := c.applyRequests
  match c.cpu.admission? with
  | none => c.proceed 0
  | some line =>
    let cycles := entryCycles c.cpu.wait line
    let c := c.enter line
    if line = .firq then c.proceed cycles else (.ok cycles, c.account cycles)

end Sim6809.Core
