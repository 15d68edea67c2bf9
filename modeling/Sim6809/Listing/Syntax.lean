import Sim6809.Listing.Operation
import Sim6809.Text.Blank
import Sim6809.Text.Column

/-!
Operations in the syntax of an assembler, and the lines of a listing: the address, the bytes in a
column of fixed width, the label, the mnemonic and the operand.
-/
namespace Sim6809

def signedText (b : UInt8) : String := toString (Word.signed b)

def selectorText (code : UInt8) : String :=
  match Register.ofCode? code with
  | some r => r.name
  | none => "?"

def registerListText (mask : UInt8) (otherStack : String) : String :=
  let names := ["CC", "A", "B", "DP", "X", "Y", otherStack, "PC"]
  let bits : List UInt8 := [0x01, 0x02, 0x04, 0x08, 0x10, 0x20, 0x40, 0x80]
  ",".intercalate ((names.zip bits).filterMap fun (name, bit) =>
    if mask &&& bit != 0 then some name else none)

def IndexedForm.text (form : IndexedForm) (r : String) (post : PostOperand) : String :=
  let byte : UInt8 := match post with
    | .byte b => b
    | _ => 0
  let word : UInt16 := match post with
    | .word w => w
    | _ => 0
  match form with
  | offset5 offset => signedText offset ++ "," ++ r
  | postIncrement1 => "," ++ r ++ "+"
  | postIncrement2 => "," ++ r ++ "++"
  | preDecrement1 => ",-" ++ r
  | preDecrement2 => ",--" ++ r
  | noOffset => "," ++ r
  | accumulatorB => "B," ++ r
  | accumulatorA => "A," ++ r
  | accumulatorD => "D," ++ r
  | offset8 => signedText byte ++ "," ++ r
  | offset16 => "$" ++ Hex.word word ++ "," ++ r
  | pcRelative8 => signedText byte ++ ",PCR"
  | pcRelative16 => "$" ++ Hex.word word ++ ",PCR"
  | extendedIndirect => "$" ++ Hex.word word
  | reserved => "??," ++ r

/-- The text of an indexed operand; brackets stand for indirection. -/
def indexedText (postbyte : UInt8) (post : PostOperand) : String :=
  let decoded := IndexedPostbyte.decode postbyte
  let body := decoded.form.text decoded.register.name post
  if decoded.indirect then "[" ++ body ++ "]" else body

/-- The text of an immediate byte, which is a register list or a pair for some instructions. -/
def immediateText (instruction : Instruction) (b : UInt8) : String :=
  match instruction with
  | .tfr | .exg => selectorText (b >>> 4) ++ "," ++ selectorText (b &&& 0x0F)
  | .push stack | .pull stack => registerListText b stack.other.name
  | _ => "#$" ++ Hex.byte b

namespace Operation

/-- The mnemonic; a SWI2 with a call number is a system call. -/
def mnemonic (op : Operation) : String :=
  if op.os9Call.isSome then "OS9" else op.instruction.mnemonic

def targetText (op : Operation) : String :=
  if op.targetLabel ≠ "" then op.targetLabel
  else
    match op.branchTarget? with
    | some target => "$" ++ Hex.word target
    | none => ""

def operandText (op : Operation) : String :=
  match op.os9Call with
  | some call => "$" ++ Hex.byte call
  | none =>
    match op.operand with
    | .none => ""
    | .immediate8 b => immediateText op.instruction b
    | .immediate16 w => "#$" ++ Hex.word w
    | .direct low => "<$" ++ Hex.byte low
    | .extended address => "$" ++ Hex.word address
    | .indexed postbyte => indexedText postbyte op.postOperand
    | .relative8 _ | .relative16 _ => op.targetText

def bytesWidth : Nat := 14

/-- The label with a colon, or nothing. -/
def labelText (op : Operation) : String := if op.label = "" then "" else op.label ++ ": "

def paddedLine (op : Operation) : String :=
  Hex.word op.offset ++ "  " ++ Text.padRight bytesWidth (" ".intercalate (op.bytes.map Hex.byte)) ++
    "  " ++ op.labelText ++ Text.padRight 5 op.mnemonic ++ " " ++ op.operandText

def line (op : Operation) : String := String.ofList (Text.trimEnd op.paddedLine.toList)

end Operation
end Sim6809
