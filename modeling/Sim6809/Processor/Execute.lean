import Sim6809.Alu
import Sim6809.Processor.Operand
import Sim6809.Processor.Stack

/-!
What each instruction does once its operand is located. An instruction gives the cycles that it
takes beyond those of its opcode and addressing mode; only transfers and exchanges can fail.
-/
namespace Sim6809.Core

def setResult (c : Core) (acc : Accumulator) (result : UInt8 × Flags) : Core :=
  c.setRegs { c.regs.setAcc acc result.1 with cc := result.2 }

def setResultD (c : Core) (result : UInt16 × Flags) : Core :=
  c.setRegs { c.regs.setD result.1 with cc := result.2 }

def byteOp (c : Core) (op : ByteOp) (acc : Accumulator) : Core :=
  let (operand, c) := c.operandByte
  c.setResult acc (Alu.byteOp op c.regs.cc (c.regs.acc acc) operand)

def load (c : Core) (acc : Accumulator) : Core :=
  let (value, c) := c.operandByte
  c.setResult acc (value, Alu.logic8 c.regs.cc value)

def store (c : Core) (acc : Accumulator) : Core :=
  let value := c.regs.acc acc
  (c.setFlags (Alu.logic8 c.regs.cc value)).writeByte c.cpu.ea value

def loadWord (c : Core) (register : WordRegister) : Core :=
  let (value, c) := c.operandWord
  c.setRegs { c.regs.setWord register value with cc := Alu.logic16 c.regs.cc value }

def storeWord (c : Core) (register : WordRegister) : Core :=
  let value := c.regs.word register
  (c.setFlags (Alu.logic16 c.regs.cc value)).writeWord c.cpu.ea value

/-- The word compare: the condition codes of a subtraction whose result is dropped. -/
def compareWord (c : Core) (register : WordRegister) : Core :=
  let (operand, c) := c.operandWord
  c.setFlags (Alu.sub16 c.regs.cc (c.regs.word register) operand).2

def addWord (c : Core) : Core :=
  let (operand, c) := c.operandWord
  c.setResultD (Alu.add16 c.regs.cc c.regs.d operand)

def subWord (c : Core) : Core :=
  let (operand, c) := c.operandWord
  c.setResultD (Alu.sub16 c.regs.cc c.regs.d operand)

/-- The load of an address: X and Y tell by the zero flag whether it is zero, S and U do not. -/
def loadAddress (c : Core) (register : IndexRegister) : Core :=
  let ea := c.cpu.ea
  let c := c.setRegs (c.regs.setIndex register ea)
  match register with
  | .x | .y => c.setFlags { c.regs.cc with zero := ea == 0 }
  | .u | .s => c

def unary (c : Core) (op : UnaryOp) (acc : Accumulator) : Core :=
  c.setResult acc (Alu.unary op c.regs.cc (c.regs.acc acc))

def modify (c : Core) (op : UnaryOp) : Core :=
  let (value, c) := c.operandByte
  let (result, cc) := Alu.unary op c.regs.cc value
  (c.setFlags cc).writeByte c.cpu.ea result

def test (c : Core) (acc : Accumulator) : Core :=
  c.setFlags (Alu.logic8 c.regs.cc (c.regs.acc acc))

def testMemory (c : Core) : Core :=
  let (value, c) := c.operandByte
  c.setFlags (Alu.logic8 c.regs.cc value)

def abx (c : Core) : Core := c.setRegs { c.regs with x := c.regs.x + c.regs.b.toUInt16 }

/-- The register that a selector of a transfer names; a reserved one is logged and taken for D. -/
def selectRegister (c : Core) (code : UInt8) : Register × Core :=
  match Register.ofCode? code with
  | some r => (r, c)
  | none =>
    (.d, c.addRecord .warn ("reserved register code 0x" ++ Hex.upper code.toNat ++
      " in TFR/EXG at $" ++ Hex.word c.regs.pc ++ ", using D"))

/-- The two registers that the postbyte of a transfer names, which have to be equally wide. -/
def selectPair (c : Core) : Except Fault (Register × Register) × Core :=
  let (postbyte, c) := c.operandByte
  let (source, c) := c.selectRegister (postbyte >>> 4)
  let (destination, c) := c.selectRegister (postbyte &&& 0x0F)
  if source.isWide = destination.isWide then (.ok (source, destination), c)
  else (.error (.mismatchedRegisters source destination), c)

def transfer (r : Registers) (source destination : Register) : Registers :=
  r.set destination (r.get source)

def exchange (r : Registers) (first second : Register) : Registers :=
  (r.set first (r.get second)).set second (r.get first)

def onPair (c : Core) (change : Registers → Register → Register → Registers) :
    Except Fault Nat × Core :=
  match c.selectPair with
  | (.ok (first, second), c) => (.ok 0, c.setRegs (change c.regs first second))
  | (.error fault, c) => (.error fault, c)

def call (c : Core) : Core :=
  let c := c.pushWord .s c.regs.pc
  c.setPc c.cpu.ea

def returnFromCall (c : Core) : Core := c.pullRegister .s .pc

def softwareInterrupt (c : Core) (event : Event) (masks : Bool) : Core :=
  let c := c.pushEntire
  let c := if masks then c.setFlags c.regs.cc.maskInterrupts else c
  let (pc, c) := c.readWord event.vector
  c.setPc pc

/-- Keeps the flags of the operand, pushes a full frame and waits for an interrupt. -/
def waitForInterrupt (c : Core) : Core :=
  let (mask, c) := c.operandByte
  ((c.setFlags (c.regs.cc.keep mask)).pushEntire).setWait .cwaiWait

def frameBytes (rs : List Register) : Nat := rs.foldr (fun r bytes => r.bytes + bytes) 0

def execute (c : Core) : Instruction → Except Fault Nat × Core
  | .nop | .illegal => (.ok 0, c)
  | .byteOp op acc => (.ok 0, c.byteOp op acc)
  | .load acc => (.ok 0, c.load acc)
  | .store acc => (.ok 0, c.store acc)
  | .andcc =>
    let (mask, c) := c.operandByte
    (.ok 0, c.setFlags (c.regs.cc.keep mask))
  | .orcc =>
    let (mask, c) := c.operandByte
    (.ok 0, c.setFlags (c.regs.cc.raise mask))
  | .addd => (.ok 0, c.addWord)
  | .subd => (.ok 0, c.subWord)
  | .compareWord register => (.ok 0, c.compareWord register)
  | .loadWord register => (.ok 0, c.loadWord register)
  | .storeWord register => (.ok 0, c.storeWord register)
  | .loadAddress register => (.ok 0, c.loadAddress register)
  | .unary op acc => (.ok 0, c.unary op acc)
  | .modify op => (.ok 0, c.modify op)
  | .test acc => (.ok 0, c.test acc)
  | .testMemory => (.ok 0, c.testMemory)
  | .abx => (.ok 0, c.abx)
  | .mul => (.ok 0, c.setResultD (Alu.mul c.regs.cc c.regs.a c.regs.b))
  | .daa => (.ok 0, c.setResult .a (Alu.daa c.regs.cc c.regs.a))
  | .sex => (.ok 0, c.setResultD (Alu.sex c.regs.cc c.regs.b))
  | .tfr => c.onPair transfer
  | .exg => c.onPair exchange
  | .branch condition =>
    (.ok 0, if condition.holds c.regs.cc then c.setPc c.cpu.ea else c)
  | .longBranch condition =>
    if condition.holds c.regs.cc then
      (.ok (if condition = .ra then 0 else 1), c.setPc c.cpu.ea)
    else (.ok 0, c)
  | .bsr | .lbsr | .jsr => (.ok 0, c.call)
  | .jmp => (.ok 0, c.setPc c.cpu.ea)
  | .rts => (.ok 0, c.returnFromCall)
  | .push stack =>
    let (mask, c) := c.operandByte
    (.ok (frameBytes (stack.selected mask)), c.pushRegisters stack (stack.selected mask))
  | .pull stack =>
    let (mask, c) := c.operandByte
    (.ok (frameBytes (stack.selected mask)), c.pullRegisters stack (stack.selected mask))
  | .rti =>
    let (entire, c) := c.pullFrame
    (.ok (if entire then 9 else 0), c)
  | .swi => (.ok 0, c.softwareInterrupt .swi true)
  | .swi2 => (.ok 0, c.softwareInterrupt .swi2 false)
  | .swi3 => (.ok 0, c.softwareInterrupt .swi3 false)
  | .cwai => (.ok 0, c.waitForInterrupt)
  | .sync => (.ok 0, c.setWait .syncWait)

end Sim6809.Core
