import Sim6809.Isa.Indexed
import Sim6809.Isa.Opcode
import Sim6809.Processor.Basic

/-!
Operands. Before an instruction is executed its addressing mode is carried out: the program counter
moves past the operand, and the address that the instruction works on is set.
-/
namespace Sim6809.Core

/-- The address that an indexed form gives with its base register. The automatic forms change
that register; a pre-decrement uses the new value, a post-increment the old one. -/
def indexedAddress (c : Core) (register : IndexRegister) : IndexedForm → UInt16 × Core
  | .offset5 offset => (c.regs.index register + Word.signExtend offset, c)
  | .postIncrement1 =>
    let base := c.regs.index register
    (base, c.setRegs (c.regs.setIndex register (base + 1)))
  | .postIncrement2 =>
    let base := c.regs.index register
    (base, c.setRegs (c.regs.setIndex register (base + 2)))
  | .preDecrement1 =>
    let address := c.regs.index register - 1
    (address, c.setRegs (c.regs.setIndex register address))
  | .preDecrement2 =>
    let address := c.regs.index register - 2
    (address, c.setRegs (c.regs.setIndex register address))
  | .noOffset => (c.regs.index register, c)
  | .accumulatorB => (c.regs.index register + Word.signExtend c.regs.b, c)
  | .accumulatorA => (c.regs.index register + Word.signExtend c.regs.a, c)
  | .accumulatorD => (c.regs.index register + c.regs.d, c)
  | .offset8 =>
    let (offset, c) := c.fetchByte
    (c.regs.index register + Word.signExtend offset, c)
  | .offset16 =>
    let (offset, c) := c.fetchWord
    (c.regs.index register + offset, c)
  | .pcRelative8 =>
    let (offset, c) := c.fetchByte
    (c.regs.pc + Word.signExtend offset, c)
  | .pcRelative16 =>
    let (offset, c) := c.fetchWord
    (c.regs.pc + offset, c)
  | .extendedIndirect => c.fetchWord
  | .reserved => (c.regs.index register, c)

def reservedText (postbyte : UInt8) (address : UInt16) : String :=
  "reserved indexed postbyte $" ++ Hex.byte postbyte ++ " at $" ++ Hex.word address ++ ", using ," ++
    (IndexedPostbyte.decode postbyte).register.name

/-- Carries out the indexed mode; gives the cycles that it adds. -/
def locateIndexed (c : Core) : Nat × Core :=
  let start := c.regs.pc
  let (postbyte, c) := c.fetchByte
  let decoded := IndexedPostbyte.decode postbyte
  let c := if decoded.form = .reserved then c.addRecord .warn (reservedText postbyte start) else c
  let (address, c) := c.indexedAddress decoded.register decoded.form
  if decoded.indirect then
    let (target, c) := c.readWord address
    (decoded.cycles, c.setEa target)
  else (decoded.cycles, c.setEa address)

/-- Carries out an addressing mode; gives the cycles that it adds. -/
def locate (c : Core) : AddressMode → Nat × Core
  | .inherent => (0, c)
  | .immediate8 => (0, (c.setEa c.regs.pc).setPc (c.regs.pc + 1))
  | .immediate16 => (0, (c.setEa c.regs.pc).setPc (c.regs.pc + 2))
  | .direct =>
    let (low, c) := c.fetchByte
    (0, c.setEa (Word.join c.regs.dp low))
  | .extended =>
    let (address, c) := c.fetchWord
    (0, c.setEa address)
  | .indexed => c.locateIndexed
  | .relative8 =>
    let (offset, c) := c.fetchByte
    (0, c.setEa (c.regs.pc + Word.signExtend offset))
  | .relative16 =>
    let (offset, c) := c.fetchWord
    (0, c.setEa (c.regs.pc + offset))

def operandByte (c : Core) : UInt8 × Core := c.readByte c.cpu.ea

def operandWord (c : Core) : UInt16 × Core := c.readWord c.cpu.ea

end Sim6809.Core
