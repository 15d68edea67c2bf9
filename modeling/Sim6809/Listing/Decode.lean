import Sim6809.Listing.Operation
import Sim6809.Memory
import Sim6809.Processor.Operand
import Sim6809.Symbols

/-!
Decoding for listings. An operation is read from the memory cells alone, passively and without the
processor, so that looking at a program never changes the machine.
-/
namespace Sim6809

def Operand.read (m : Memory) (address : UInt16) : AddressMode → Operand
  | .inherent => .none
  | .immediate8 => .immediate8 (m.read address)
  | .immediate16 => .immediate16 (m.readWord address)
  | .direct => .direct (m.read address)
  | .extended => .extended (m.readWord address)
  | .indexed => .indexed (m.read address)
  | .relative8 => .relative8 (m.read address)
  | .relative16 => .relative16 (m.readWord address)

def PostOperand.read (m : Memory) (address : UInt16) : Operand → PostOperand
  | .indexed postbyte =>
    match (IndexedPostbyte.decode postbyte).offsetLength with
    | 1 => .byte (m.read address)
    | 2 => .word (m.readWord address)
    | _ => .none
  | _ => .none

namespace Operation

def readOpcode (m : Memory) (address : UInt16) : Page × UInt8 :=
  match Page.ofByte? (m.read address) with
  | some page => (page, m.read (address + 1))
  | none => (.unprefixed, m.read address)

/-- The operation at an address, without labels. A SWI2 takes the byte behind it as the number of a
system call. -/
def read (m : Memory) (address : UInt16) : Operation :=
  let (page, opcode) := readOpcode m address
  let entry := Opcode.lookup page opcode
  let operandAddress := address + UInt16.ofNat page.opcodeLength
  let operand := Operand.read m operandAddress entry.mode
  let postAddress := operandAddress + UInt16.ofNat entry.mode.operandLength
  let postOperand := PostOperand.read m postAddress operand
  let endAddress := postAddress + UInt16.ofNat postOperand.bytes.length
  let os9Call := if entry.instruction = .swi2 then some (m.read endAddress) else none
  let size := page.opcodeLength + entry.mode.operandLength + postOperand.bytes.length +
    (if os9Call.isSome then 1 else 0)
  { label := ""
    offset := address
    page, opcode
    instruction := entry.instruction
    mode := entry.mode
    operand, postOperand
    size := UInt16.ofNat size
    bytes := m.readBytes address size
    os9Call
    targetLabel := "" }

def withLabels (op : Operation) (symbols : SymbolTable) : Operation :=
  { op with
    label := symbols.label op.offset
    targetLabel := match op.branchTarget? with
      | some target => symbols.label target
      | none => "" }

def decode (m : Memory) (symbols : SymbolTable) (address : UInt16) : Operation :=
  (read m address).withLabels symbols

/-- The log record that decoding an operation makes: one for a postbyte without a meaning. -/
def complaint? (op : Operation) : Option Record :=
  match op.operand with
  | .indexed postbyte =>
    if (IndexedPostbyte.decode postbyte).form = .reserved then
      some ⟨.warn, Core.reservedText postbyte op.operandAddress⟩
    else none
  | _ => none

end Operation

/-- At most the given number of operations from an address on, each beginning where the one
before ends. The listing ends at the top of memory. -/
def Memory.listing (m : Memory) (symbols : SymbolTable) (start : Nat) : Nat → List Operation
  | 0 => []
  | count + 1 =>
    if start < Memory.size then
      let op := Operation.decode m symbols (UInt16.ofNat start)
      op :: m.listing symbols (start + op.size.toNat) count
    else []

end Sim6809
