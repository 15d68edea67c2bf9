import Sim6809.Flags
import Sim6809.Word
import Sim6809.Text.Hex

/-!
The register file and the ways in which instructions name a register. D is no register of its own
but the word whose halves are A and B.
-/
namespace Sim6809

inductive Register
  | d | x | y | u | s | pc | a | b | cc | dp
  deriving DecidableEq, Repr

inductive Accumulator
  | a | b
  deriving DecidableEq, Repr

inductive IndexRegister
  | x | y | u | s
  deriving DecidableEq, Repr

inductive WordRegister
  | d | x | y | u | s
  deriving DecidableEq, Repr

inductive StackPointer
  | s | u
  deriving DecidableEq, Repr

namespace Register

def all : List Register := [d, x, y, u, s, pc, a, b, cc, dp]

def name : Register → String
  | d => "D"
  | x => "X"
  | y => "Y"
  | u => "U"
  | s => "S"
  | pc => "PC"
  | a => "A"
  | b => "B"
  | cc => "CC"
  | dp => "DP"

def title : Register → String
  | pc => "Pc"
  | cc => "Cc"
  | dp => "Dp"
  | r => r.name

def isWide : Register → Bool
  | d | x | y | u | s | pc => true
  | a | b | cc | dp => false

def width (r : Register) : Nat := if r.isWide then 16 else 8

/-- The register that a four-bit selector names; the selectors 6, 7 and 12 to 15 are reserved. -/
def ofCode? (code : UInt8) : Option Register :=
  match code.toNat with
  | 0 => some d
  | 1 => some x
  | 2 => some y
  | 3 => some u
  | 4 => some s
  | 5 => some pc
  | 8 => some a
  | 9 => some b
  | 10 => some cc
  | 11 => some dp
  | _ => none

end Register

def Accumulator.name : Accumulator → String
  | a => "A"
  | b => "B"

def IndexRegister.name : IndexRegister → String
  | x => "X"
  | y => "Y"
  | u => "U"
  | s => "S"

def WordRegister.name : WordRegister → String
  | d => "D"
  | x => "X"
  | y => "Y"
  | u => "U"
  | s => "S"

def StackPointer.name : StackPointer → String
  | s => "S"
  | u => "U"

/-- The stack pointer that a push or pull on this stack can name as an operand. -/
def StackPointer.other : StackPointer → StackPointer
  | s => u
  | u => s

structure Registers where
  a : UInt8
  b : UInt8
  dp : UInt8
  cc : Flags
  x : UInt16
  y : UInt16
  u : UInt16
  s : UInt16
  pc : UInt16
  deriving DecidableEq, Repr

namespace Registers

def zero : Registers := ⟨0, 0, 0, .clear, 0, 0, 0, 0, 0⟩

def d (r : Registers) : UInt16 := Word.join r.a r.b

def setD (r : Registers) (value : UInt16) : Registers :=
  { r with a := Word.hi value, b := Word.lo value }

def acc (r : Registers) : Accumulator → UInt8
  | .a => r.a
  | .b => r.b

def setAcc (r : Registers) (acc : Accumulator) (value : UInt8) : Registers :=
  match acc with
  | .a => { r with a := value }
  | .b => { r with b := value }

def index (r : Registers) : IndexRegister → UInt16
  | .x => r.x
  | .y => r.y
  | .u => r.u
  | .s => r.s

def setIndex (r : Registers) (index : IndexRegister) (value : UInt16) : Registers :=
  match index with
  | .x => { r with x := value }
  | .y => { r with y := value }
  | .u => { r with u := value }
  | .s => { r with s := value }

def word (r : Registers) : WordRegister → UInt16
  | .d => r.d
  | .x => r.x
  | .y => r.y
  | .u => r.u
  | .s => r.s

def setWord (r : Registers) (word : WordRegister) (value : UInt16) : Registers :=
  match word with
  | .d => r.setD value
  | .x => { r with x := value }
  | .y => { r with y := value }
  | .u => { r with u := value }
  | .s => { r with s := value }

def stack (r : Registers) : StackPointer → UInt16
  | .s => r.s
  | .u => r.u

def setStack (r : Registers) (stack : StackPointer) (value : UInt16) : Registers :=
  match stack with
  | .s => { r with s := value }
  | .u => { r with u := value }

def get (r : Registers) : Register → UInt16
  | .d => r.d
  | .x => r.x
  | .y => r.y
  | .u => r.u
  | .s => r.s
  | .pc => r.pc
  | .a => r.a.toUInt16
  | .b => r.b.toUInt16
  | .cc => r.cc.toByte.toUInt16
  | .dp => r.dp.toUInt16

/-- Assigns a register; a byte register takes the low half of the value. -/
def set (r : Registers) (register : Register) (value : UInt16) : Registers :=
  match register with
  | .d => r.setD value
  | .x => { r with x := value }
  | .y => { r with y := value }
  | .u => { r with u := value }
  | .s => { r with s := value }
  | .pc => { r with pc := value }
  | .a => { r with a := Word.lo value }
  | .b => { r with b := Word.lo value }
  | .cc => { r with cc := .ofByte (Word.lo value) }
  | .dp => { r with dp := Word.lo value }

def line (r : Registers) : String :=
  "A:" ++ Hex.byte r.a ++ " B:" ++ Hex.byte r.b ++ " DP:" ++ Hex.byte r.dp ++ " CC:" ++ r.cc.text ++
    " X:" ++ Hex.word r.x ++ " Y:" ++ Hex.word r.y ++ " U:" ++ Hex.word r.u ++
    " S:" ++ Hex.word r.s ++ " PC:" ++ Hex.word r.pc

def listing (r : Registers) : String :=
  "A: $" ++ Hex.byte r.a ++ "\nB: $" ++ Hex.byte r.b ++ "\nD: $" ++ Hex.word r.d ++
    "\nX: $" ++ Hex.word r.x ++ "\nY: $" ++ Hex.word r.y ++ "\nU: $" ++ Hex.word r.u ++
    "\nS: $" ++ Hex.word r.s ++ "\nPC: $" ++ Hex.word r.pc ++ "\nDP: $" ++ Hex.byte r.dp ++
    "\nCC: " ++ r.cc.text ++ "\n"

@[simp] theorem d_setD (r : Registers) (value : UInt16) : (r.setD value).d = value :=
  Word.join_hi_lo value

theorem get_set_self_of_isWide (r : Registers) {register : Register} (h : register.isWide)
    (value : UInt16) : (r.set register value).get register = value := by
  cases register <;> simp_all [Register.isWide, set, get]

theorem get_set_self_of_not_isWide (r : Registers) {register : Register} (h : ¬ register.isWide)
    (value : UInt16) : (r.set register value).get register = (Word.lo value).toUInt16 := by
  cases register <;> simp_all [Register.isWide, set, get]

end Registers
end Sim6809
