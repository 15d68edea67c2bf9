import Sim6809.Processor.Basic

/-!
The stacks. A push moves the pointer down and a pull moves it up; a word lies on a stack with its
high byte at the lower address. Whole groups of registers are pushed in the order of their bits in
a mask from the top, and pulled in the opposite order.
-/
namespace Sim6809

/-- The registers that the bits of a mask stand for on a stack, from bit 0 on. -/
def StackPointer.maskOrder (stack : StackPointer) : List Register :=
  [.cc, .a, .b, .dp, .x, .y, match stack with | .s => .u | .u => .s, .pc]

def maskBits (mask : UInt8) : List Bool :=
  [0x01, 0x02, 0x04, 0x08, 0x10, 0x20, 0x40, 0x80].map fun bit => mask &&& bit != 0

/-- The registers that a mask selects on a stack, in the order in which they are pulled. -/
def StackPointer.selected (stack : StackPointer) (mask : UInt8) : List Register :=
  (stack.maskOrder.zip (maskBits mask)).filterMap fun (register, chosen) =>
    if chosen then some register else none

def Register.bytes (r : Register) : Nat := if r.isWide then 2 else 1

namespace Core

def pushByte (c : Core) (stack : StackPointer) (value : UInt8) : Core :=
  let top := c.regs.stack stack - 1
  (c.setRegs (c.regs.setStack stack top)).writeByte top value

def pushWord (c : Core) (stack : StackPointer) (value : UInt16) : Core :=
  let top := c.regs.stack stack - 2
  (c.setRegs (c.regs.setStack stack top)).writeWord top value

def pullByte (c : Core) (stack : StackPointer) : UInt8 × Core :=
  let top := c.regs.stack stack
  (c.setRegs (c.regs.setStack stack (top + 1))).readByte top

def pullWord (c : Core) (stack : StackPointer) : UInt16 × Core :=
  let top := c.regs.stack stack
  (c.setRegs (c.regs.setStack stack (top + 2))).readWord top

def pushRegister (c : Core) (stack : StackPointer) (r : Register) : Core :=
  if r.isWide then c.pushWord stack (c.regs.get r) else c.pushByte stack (Word.lo (c.regs.get r))

def pullRegister (c : Core) (stack : StackPointer) (r : Register) : Core :=
  if r.isWide then
    let (value, c) := c.pullWord stack
    c.setRegs (c.regs.set r value)
  else
    let (value, c) := c.pullByte stack
    c.setRegs (c.regs.set r value.toUInt16)

def pullRegisters (c : Core) (stack : StackPointer) (rs : List Register) : Core :=
  rs.foldl (fun c r => c.pullRegister stack r) c

def pushRegisters (c : Core) (stack : StackPointer) (rs : List Register) : Core :=
  rs.foldr (fun r c => c.pushRegister stack r) c

/-- What lies between the condition codes and the program counter in a full frame. -/
def innerFrame : List Register := [.a, .b, .dp, .x, .y, .u]

def entireFrame : List Register := .cc :: innerFrame ++ [.pc]

def fastFrame : List Register := [.cc, .pc]

def pushEntire (c : Core) : Core :=
  (c.setFlags { c.regs.cc with entire := true }).pushRegisters .s entireFrame

def pushFast (c : Core) : Core :=
  (c.setFlags { c.regs.cc with entire := false }).pushRegisters .s fastFrame

/-- Pulls the condition codes, then the frame that their E flag announces; true for a full
frame. -/
def pullFrame (c : Core) : Bool × Core :=
  let c := c.pullRegister .s .cc
  if c.regs.cc.entire then (true, c.pullRegisters .s (innerFrame ++ [.pc]))
  else (false, c.pullRegisters .s [.pc])

end Core
end Sim6809
