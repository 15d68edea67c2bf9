import Sim6809.Isa.Instruction

/-!
The opcode map. The high digit of an opcode byte mostly chooses the addressing mode and the low
digit the instruction; the two prefix bytes open further pages with a few opcodes each.
-/
namespace Sim6809

inductive Page
  | unprefixed | page10 | page11
  deriving DecidableEq, Repr

namespace Page

def prefixByte? : Page → Option UInt8
  | unprefixed => none
  | page10 => some 0x10
  | page11 => some 0x11

def ofByte? (b : UInt8) : Option Page :=
  if b = 0x10 then some page10 else if b = 0x11 then some page11 else none

def opcodeLength : Page → Nat
  | unprefixed => 1
  | page10 | page11 => 2

end Page

inductive AddressMode
  | inherent | immediate8 | immediate16 | direct | extended | indexed | relative8 | relative16
  deriving DecidableEq, Repr

namespace AddressMode

/-- The bytes that follow every opcode of this mode; the offset bytes of an indexed operand come
on top of its postbyte. -/
def operandLength : AddressMode → Nat
  | inherent => 0
  | immediate8 | direct | indexed | relative8 => 1
  | immediate16 | extended | relative16 => 2

end AddressMode

/-- An entry of the opcode map. The cycles are those of the instruction alone; the addressing mode
and some instructions add to them. -/
structure Opcode where
  instruction : Instruction
  mode : AddressMode
  cycles : Nat
  deriving DecidableEq, Repr

namespace Opcode

def undefined : Opcode := ⟨.illegal, .inherent, 2⟩

def unaryColumn : Nat → Option UnaryOp
  | 0x0 => some .neg
  | 0x3 => some .com
  | 0x4 => some .lsr
  | 0x6 => some .ror
  | 0x7 => some .asr
  | 0x8 => some .asl
  | 0x9 => some .rol
  | 0xA => some .dec
  | 0xC => some .inc
  | 0xF => some .clr
  | _ => none

def memoryRow (mode : AddressMode) (extra : Nat) : Nat → Option Opcode
  | 0xD => some ⟨.testMemory, mode, 6 + extra⟩
  | 0xE => some ⟨.jmp, mode, 3 + extra⟩
  | low => (unaryColumn low).map fun op => ⟨.modify op, mode, 6 + extra⟩

def accumulatorRow (acc : Accumulator) : Nat → Option Opcode
  | 0xD => some ⟨.test acc, .inherent, 2⟩
  | low => (unaryColumn low).map fun op => ⟨.unary op acc, .inherent, 2⟩

def controlRow : Nat → Option Opcode
  | 0x2 => some ⟨.nop, .inherent, 2⟩
  | 0x3 => some ⟨.sync, .inherent, 4⟩
  | 0x6 => some ⟨.longBranch .ra, .relative16, 5⟩
  | 0x7 => some ⟨.lbsr, .relative16, 9⟩
  | 0x9 => some ⟨.daa, .inherent, 2⟩
  | 0xA => some ⟨.orcc, .immediate8, 3⟩
  | 0xC => some ⟨.andcc, .immediate8, 3⟩
  | 0xD => some ⟨.sex, .inherent, 2⟩
  | 0xE => some ⟨.exg, .immediate8, 8⟩
  | 0xF => some ⟨.tfr, .immediate8, 6⟩
  | _ => none

def stackRow : Nat → Option Opcode
  | 0x0 => some ⟨.loadAddress .x, .indexed, 4⟩
  | 0x1 => some ⟨.loadAddress .y, .indexed, 4⟩
  | 0x2 => some ⟨.loadAddress .s, .indexed, 4⟩
  | 0x3 => some ⟨.loadAddress .u, .indexed, 4⟩
  | 0x4 => some ⟨.push .s, .immediate8, 5⟩
  | 0x5 => some ⟨.pull .s, .immediate8, 5⟩
  | 0x6 => some ⟨.push .u, .immediate8, 5⟩
  | 0x7 => some ⟨.pull .u, .immediate8, 5⟩
  | 0x9 => some ⟨.rts, .inherent, 5⟩
  | 0xA => some ⟨.abx, .inherent, 3⟩
  | 0xB => some ⟨.rti, .inherent, 6⟩
  | 0xC => some ⟨.cwai, .immediate8, 20⟩
  | 0xD => some ⟨.mul, .inherent, 11⟩
  | 0xF => some ⟨.swi, .inherent, 19⟩
  | _ => none

/-- The operations on an accumulator and a byte, by the low digit of the opcode. -/
def byteColumn (acc : Accumulator) : Nat → Option Instruction
  | 0x0 => some (.byteOp .sub acc)
  | 0x1 => some (.byteOp .cmp acc)
  | 0x2 => some (.byteOp .sbc acc)
  | 0x4 => some (.byteOp .and acc)
  | 0x5 => some (.byteOp .bit acc)
  | 0x6 => some (.load acc)
  | 0x8 => some (.byteOp .eor acc)
  | 0x9 => some (.byteOp .adc acc)
  | 0xA => some (.byteOp .or acc)
  | 0xB => some (.byteOp .add acc)
  | _ => none

/-- The cycles that an operand's place adds to those of an immediate operand. -/
def placeCycles : AddressMode → Nat
  | .direct | .indexed => 2
  | .extended => 3
  | _ => 0

def widen : AddressMode → AddressMode
  | .immediate8 => .immediate16
  | mode => mode

def wordOp (instruction : Instruction) (mode : AddressMode) (cycles : Nat) : Option Opcode :=
  some ⟨instruction, widen mode, cycles + placeCycles mode⟩

def storeOp (instruction : Instruction) (mode : AddressMode) (cycles : Nat) : Option Opcode :=
  if mode = .immediate8 then none else some ⟨instruction, mode, cycles + placeCycles mode⟩

def rowA (mode : AddressMode) : Nat → Option Opcode
  | 0x3 => wordOp .subd mode 4
  | 0x7 => storeOp (.store .a) mode 2
  | 0xC => wordOp (.compareWord .x) mode 4
  | 0xD => if mode = .immediate8 then some ⟨.bsr, .relative8, 7⟩
    else some ⟨.jsr, mode, 5 + placeCycles mode⟩
  | 0xE => wordOp (.loadWord .x) mode 3
  | 0xF => storeOp (.storeWord .x) mode 3
  | low => (byteColumn .a low).map fun i => ⟨i, mode, 2 + placeCycles mode⟩

def rowB (mode : AddressMode) : Nat → Option Opcode
  | 0x3 => wordOp .addd mode 4
  | 0x7 => storeOp (.store .b) mode 2
  | 0xC => wordOp (.loadWord .d) mode 3
  | 0xD => storeOp (.storeWord .d) mode 3
  | 0xE => wordOp (.loadWord .u) mode 3
  | 0xF => storeOp (.storeWord .u) mode 3
  | low => (byteColumn .b low).map fun i => ⟨i, mode, 2 + placeCycles mode⟩

def unprefixed : Nat → Nat → Option Opcode
  | 0x0, low => memoryRow .direct 0 low
  | 0x1, low => controlRow low
  | 0x2, low => (Condition.ofIndex? low).map fun c => ⟨.branch c, .relative8, 3⟩
  | 0x3, low => stackRow low
  | 0x4, low => accumulatorRow .a low
  | 0x5, low => accumulatorRow .b low
  | 0x6, low => memoryRow .indexed 0 low
  | 0x7, low => memoryRow .extended 1 low
  | 0x8, low => rowA .immediate8 low
  | 0x9, low => rowA .direct low
  | 0xA, low => rowA .indexed low
  | 0xB, low => rowA .extended low
  | 0xC, low => rowB .immediate8 low
  | 0xD, low => rowB .direct low
  | 0xE, low => rowB .indexed low
  | 0xF, low => rowB .extended low
  | _, _ => none

def rowMode (high : Nat) : AddressMode :=
  match high % 4 with
  | 0 => .immediate8
  | 1 => .direct
  | 2 => .indexed
  | _ => .extended

def page10 (high low : Nat) : Option Opcode :=
  if high = 0x2 then
    if low = 0 then none
    else (Condition.ofIndex? low).map fun c => ⟨.longBranch c, .relative16, 5⟩
  else if high = 0x3 then if low = 0xF then some ⟨.swi2, .inherent, 20⟩ else none
  else if high < 0x8 then none
  else
    let mode := rowMode high
    match low with
    | 0x3 => if high < 0xC then wordOp (.compareWord .d) mode 5 else none
    | 0xC => if high < 0xC then wordOp (.compareWord .y) mode 5 else none
    | 0xE => wordOp (.loadWord (if high < 0xC then .y else .s)) mode 4
    | 0xF => storeOp (.storeWord (if high < 0xC then .y else .s)) mode 4
    | _ => none

def page11 (high low : Nat) : Option Opcode :=
  if high = 0x3 then if low = 0xF then some ⟨.swi3, .inherent, 20⟩ else none
  else if 0x8 ≤ high ∧ high < 0xC then
    match low with
    | 0x3 => wordOp (.compareWord .u) (rowMode high) 5
    | 0xC => wordOp (.compareWord .s) (rowMode high) 5
    | _ => none
  else none

/-- The entry of a byte on a page; nothing for an undefined opcode. -/
def lookup? (page : Page) (byte : UInt8) : Option Opcode :=
  let high := byte.toNat / 16
  let low := byte.toNat % 16
  match page with
  | .unprefixed => unprefixed high low
  | .page10 => page10 high low
  | .page11 => page11 high low

/-- The entry of a byte on a page, an undefined opcode being taken for one that does nothing. -/
def lookup (page : Page) (byte : UInt8) : Opcode := (lookup? page byte).getD undefined

end Opcode
end Sim6809
