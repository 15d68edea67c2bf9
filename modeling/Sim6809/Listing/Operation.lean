import Sim6809.Isa.Indexed
import Sim6809.Isa.Opcode

/-!
One decoded instruction of a listing: its bytes, what they mean, and the labels that belong to it.
-/
namespace Sim6809

inductive Operand
  | none
  | immediate8 (value : UInt8)
  | immediate16 (value : UInt16)
  | direct (low : UInt8)
  | extended (address : UInt16)
  | indexed (postbyte : UInt8)
  | relative8 (offset : UInt8)
  | relative16 (offset : UInt16)
  deriving DecidableEq, Repr

inductive PostOperand
  | none
  | byte (value : UInt8)
  | word (value : UInt16)
  deriving DecidableEq, Repr

structure Operation where
  label : String
  offset : UInt16
  page : Page
  opcode : UInt8
  instruction : Instruction
  mode : AddressMode
  operand : Operand
  postOperand : PostOperand
  size : UInt16
  bytes : List UInt8
  os9Call : Option UInt8
  targetLabel : String
  deriving DecidableEq, Repr

def wordBytes (w : UInt16) : List UInt8 := [Word.hi w, Word.lo w]

def Operand.bytes : Operand → List UInt8
  | none => []
  | immediate8 b | direct b | indexed b | relative8 b => [b]
  | immediate16 w | extended w | relative16 w => wordBytes w

def PostOperand.bytes : PostOperand → List UInt8
  | none => []
  | byte b => [b]
  | word w => wordBytes w

namespace Operation

def next (op : Operation) : UInt16 := op.offset + op.size

def branchTarget? (op : Operation) : Option UInt16 :=
  match op.operand with
  | .relative8 offset => some (op.next + Word.signExtend offset)
  | .relative16 offset => some (op.next + offset)
  | _ => none

def operandAddress (op : Operation) : UInt16 := op.offset + UInt16.ofNat op.page.opcodeLength

end Operation
end Sim6809
