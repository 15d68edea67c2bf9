import Sim6809.Registers

/-!
The instructions, by what they do and which register they do it to. A mnemonic is made of the
stem of an operation and the name of a register, and names one instruction.
-/
namespace Sim6809

inductive ByteOp
  | sub | cmp | sbc | and | bit | eor | adc | or | add
  deriving DecidableEq, Repr

inductive UnaryOp
  | neg | com | lsr | ror | asr | asl | rol | dec | inc | clr
  deriving DecidableEq, Repr

inductive Condition
  | ra | rn | hi | ls | cc | cs | ne | eq | vc | vs | pl | mi | ge | lt | gt | le
  deriving DecidableEq, Repr

inductive Instruction
  | nop
  | byteOp (op : ByteOp) (acc : Accumulator)
  | load (acc : Accumulator)
  | store (acc : Accumulator)
  | andcc
  | orcc
  | addd
  | subd
  | compareWord (register : WordRegister)
  | loadWord (register : WordRegister)
  | storeWord (register : WordRegister)
  | loadAddress (register : IndexRegister)
  | unary (op : UnaryOp) (acc : Accumulator)
  | modify (op : UnaryOp)
  | test (acc : Accumulator)
  | testMemory
  | abx
  | mul
  | daa
  | sex
  | tfr
  | exg
  | branch (condition : Condition)
  | longBranch (condition : Condition)
  | bsr
  | lbsr
  | jsr
  | jmp
  | rts
  | push (stack : StackPointer)
  | pull (stack : StackPointer)
  | rti
  | swi
  | swi2
  | swi3
  | cwai
  | sync
  /-- The meaning of an undefined opcode: it does nothing. -/
  | illegal
  deriving DecidableEq, Repr

namespace ByteOp

def stem : ByteOp → String
  | sub => "SUB"
  | cmp => "CMP"
  | sbc => "SBC"
  | and => "AND"
  | bit => "BIT"
  | eor => "EOR"
  | adc => "ADC"
  | or => "OR"
  | add => "ADD"

end ByteOp

namespace UnaryOp

def stem : UnaryOp → String
  | neg => "NEG"
  | com => "COM"
  | lsr => "LSR"
  | ror => "ROR"
  | asr => "ASR"
  | asl => "ASL"
  | rol => "ROL"
  | dec => "DEC"
  | inc => "INC"
  | clr => "CLR"

end UnaryOp

namespace Condition

def all : List Condition :=
  [ra, rn, hi, ls, cc, cs, ne, eq, vc, vs, pl, mi, ge, lt, gt, le]

def suffix : Condition → String
  | ra => "RA"
  | rn => "RN"
  | hi => "HI"
  | ls => "LS"
  | cc => "CC"
  | cs => "CS"
  | ne => "NE"
  | eq => "EQ"
  | vc => "VC"
  | vs => "VS"
  | pl => "PL"
  | mi => "MI"
  | ge => "GE"
  | lt => "LT"
  | gt => "GT"
  | le => "LE"

def ofIndex? (index : Nat) : Option Condition := all[index]?

def holds (condition : Condition) (flags : Flags) : Bool :=
  match condition with
  | ra => true
  | rn => false
  | hi => !flags.carry && !flags.zero
  | ls => flags.carry || flags.zero
  | cc => !flags.carry
  | cs => flags.carry
  | ne => !flags.zero
  | eq => flags.zero
  | vc => !flags.overflow
  | vs => flags.overflow
  | pl => !flags.negative
  | mi => flags.negative
  | ge => flags.negative == flags.overflow
  | lt => flags.negative != flags.overflow
  | gt => flags.negative == flags.overflow && !flags.zero
  | le => flags.negative != flags.overflow || flags.zero

end Condition

namespace Instruction

def mnemonic : Instruction → String
  | nop => "NOP"
  | byteOp op acc => op.stem ++ acc.name
  | load acc => "LD" ++ acc.name
  | store acc => "ST" ++ acc.name
  | andcc => "ANDCC"
  | orcc => "ORCC"
  | addd => "ADDD"
  | subd => "SUBD"
  | compareWord r => "CMP" ++ r.name
  | loadWord r => "LD" ++ r.name
  | storeWord r => "ST" ++ r.name
  | loadAddress r => "LEA" ++ r.name
  | unary op acc => op.stem ++ acc.name
  | modify op => op.stem
  | test acc => "TST" ++ acc.name
  | testMemory => "TST"
  | abx => "ABX"
  | mul => "MUL"
  | daa => "DAA"
  | sex => "SEX"
  | tfr => "TFR"
  | exg => "EXG"
  | branch c => "B" ++ c.suffix
  | longBranch c => "LB" ++ c.suffix
  | bsr => "BSR"
  | lbsr => "LBSR"
  | jsr => "JSR"
  | jmp => "JMP"
  | rts => "RTS"
  | push stack => "PSH" ++ stack.name
  | pull stack => "PUL" ++ stack.name
  | rti => "RTI"
  | swi => "SWI"
  | swi2 => "SWI2"
  | swi3 => "SWI3"
  | cwai => "CWAI"
  | sync => "SYNC"
  | illegal => "???"

/-- Short and long branches, conditional or not; a call is no branch. -/
def isBranch : Instruction → Bool
  | branch _ | longBranch _ => true
  | _ => false

def isCall : Instruction → Bool
  | bsr | lbsr | jsr => true
  | _ => false

end Instruction
end Sim6809
